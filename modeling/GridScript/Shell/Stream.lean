/-
What flows between commands: bytes, and then, in an endless stream, some
bytes over and over. Endless streams are rare, but a command that cuts one
off ends all the same, and a stream that nothing cuts off is what never
ends.
-/
import GridScript.Text.Utf8

namespace GridScript.Shell

/-- A stream of bytes. -/
structure Stream where
  bytes : ByteArray
  /-- What follows over and over; nothing in a stream that ends. -/
  cycle : ByteArray

namespace Stream

/-- The stream of some bytes. -/
def ofBytes (bytes : ByteArray) : Stream := ⟨bytes, .empty⟩

/-- The stream without bytes. -/
def empty : Stream := ofBytes .empty

instance : Inhabited Stream := ⟨empty⟩

/-- The bytes of a text. -/
def encode (t : Text) : ByteArray := (String.ofList t).toUTF8

/-- The stream of a text. -/
def ofText (t : Text) : Stream := ofBytes (encode t)

/-- Does the stream never end? -/
def isEndless (s : Stream) : Bool := !s.cycle.isEmpty

/-- Some bytes a number of times. -/
def repeated (bytes : ByteArray) (n : Nat) : ByteArray :=
  Nat.repeat (· ++ bytes) n .empty

/-- The first bytes of the stream. -/
def take (n : Nat) (s : Stream) : ByteArray :=
  if n ≤ s.bytes.size || s.cycle.isEmpty then
    s.bytes.extract 0 (min n s.bytes.size)
  else
    let missing := n - s.bytes.size
    s.bytes
      ++ (repeated s.cycle (missing / s.cycle.size + 1)).extract 0 missing

/-- The stream with each byte replaced by some. -/
def flatMap (f : UInt8 → List UInt8) (s : Stream) : Stream :=
  let image (bytes : ByteArray) : ByteArray :=
    bytes.foldl (fun out b => (f b).foldl ByteArray.push out) .empty
  ⟨image s.bytes, image s.cycle⟩

/-- One stream after another. -/
def append (s t : Stream) : Stream :=
  if s.isEndless then s else ⟨s.bytes ++ t.bytes, t.cycle⟩

/-- The text of bytes. -/
def decode (bytes : ByteArray) : Text := Text.ofBytes bytes.toList

end Stream

end GridScript.Shell
