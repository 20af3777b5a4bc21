/-
The UTF-8 side of a text. Editors count positions in a script in bytes,
so a selection is cut at byte offsets, and an offset inside a character
cuts nothing. The output of a process is bytes that need not be UTF-8 at
all: it is read with each longest unfinished or impossible sequence
replaced by one U+FFFD.
-/
import GridScript.Text.Basic

namespace GridScript.Text

/-- How many bytes the text takes. -/
def byteLength (t : Text) : Nat :=
  t.foldr (fun c n => c.utf8Size + n) 0

/-- The text before and after a byte offset; none if the offset lies
beyond the end or inside a character. -/
def cutAtByte? : Nat → Text → Option (Text × Text)
  | 0, t => some ([], t)
  | _ + 1, [] => none
  | n + 1, c :: t =>
    if c.utf8Size ≤ n + 1 then
      (cutAtByte? (n + 1 - c.utf8Size) t).map fun (before, after) =>
        (c :: before, after)
    else none

-- ======================================================== reading bytes

/-- What stands for bytes that are no character. -/
def replacement : Char := '\uFFFD'

/-- Where the reader stands: between characters, or inside one of which
`code` is read and `owed` bytes are to come, the next of them between
`low` and `high`. -/
inductive ByteState where
  | between
  | inside (code owed low high : Nat)

/-- Reads a byte between characters. The bounds on the second byte rule
out overlong forms, surrogates and values above U+10FFFF at once. -/
def readLead (b : Nat) : Text × ByteState :=
  if b < 0x80 then ([Char.ofNat b], .between)
  else if 0xC2 ≤ b && b ≤ 0xDF then ([], .inside (b - 0xC0) 1 0x80 0xBF)
  else if b = 0xE0 then ([], .inside 0 2 0xA0 0xBF)
  else if b = 0xED then ([], .inside 0xD 2 0x80 0x9F)
  else if 0xE1 ≤ b && b ≤ 0xEF then ([], .inside (b - 0xE0) 2 0x80 0xBF)
  else if b = 0xF0 then ([], .inside 0 3 0x90 0xBF)
  else if 0xF1 ≤ b && b ≤ 0xF3 then ([], .inside (b - 0xF0) 3 0x80 0xBF)
  else if b = 0xF4 then ([], .inside 4 3 0x80 0x8F)
  else ([replacement], .between)

/-- Reads a byte. One that cannot continue a character ends it as one
replacement and is read afresh. -/
def readByte : ByteState → Nat → Text × ByteState
  | .between, b => readLead b
  | .inside code owed low high, b =>
    if low ≤ b && b ≤ high then
      let code := code * 64 + (b - 0x80)
      if owed ≤ 1 then ([Char.ofNat code], .between)
      else ([], .inside code (owed - 1) 0x80 0xBF)
    else
      let (read, state) := readLead b
      (replacement :: read, state)

/-- Reads bytes to their end, where an unfinished character is one
replacement. -/
def readBytes : ByteState → List UInt8 → Text
  | .between, [] => []
  | .inside .., [] => [replacement]
  | state, b :: bs =>
    let (read, state) := readByte state b.toNat
    read ++ readBytes state bs

/-- The text that bytes spell, with replacements where they spell none. -/
def ofBytes (bs : List UInt8) : Text := readBytes .between bs

/-- The bytes that spell a text. -/
def toBytes (t : Text) : List UInt8 := (String.ofList t).toUTF8.toList

end GridScript.Text
