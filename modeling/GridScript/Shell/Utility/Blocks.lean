/-
Copying by blocks. Operands are settings by name: where the bytes come from
and go to, how large a block is, and how many blocks are passed over and
copied.
-/
import GridScript.Shell.Expansion
import GridScript.Shell.Utility.Basic

namespace GridScript.Shell

/-- How much is told of a copy. -/
inductive CopyReport where
  | all
  /-- The blocks, but not how fast they were copied. -/
  | blocks
  | nothing
  deriving DecidableEq

/-- What is copied, and how. -/
structure BlockCopy where
  source : Option Path
  target : Option Path
  /-- How large a block of the source is, and one of the target. -/
  inSize : Nat
  outSize : Nat
  /-- How many blocks are copied, if not all; or bytes. -/
  count : Option (Nat × Bool)
  /-- How many blocks of the source are passed over. -/
  skip : Nat
  /-- How many blocks of the target stay. -/
  seek : Nat
  conversions : List Text
  report : CopyReport

/-- What is wrong with an operand, and whether asking for help is advised. -/
structure CopyFault where
  message : Text
  advises : Bool

namespace BlockCopy

/-- All that is given is copied. -/
def standard : BlockCopy := ⟨none, none, 512, 512, none, 0, 0, [], .all⟩

/-- The number that a text spells: factors, each with a unit. -/
def number? (t : Text) : Option Nat :=
  let factor? (t : Text) : Option Nat :=
    match String.ofList (t.dropWhile Char.isDigit) with
    | "c" => sizeOf? (t.takeWhile Char.isDigit)
    | "w" => (sizeOf? (t.takeWhile Char.isDigit)).map (2 * ·)
    | _ => sizeOf? t
  (Text.splitOn 'x' t).foldl
    (fun product t => do return (← product) * (← factor? t)) (some 1)

/-- The conversions that there are. Those of letters change what is copied,
and one of them keeps the end of the target. -/
def conversionNames : List Text :=
  ["ascii", "ebcdic", "ibm", "block", "unblock", "lcase", "ucase", "sparse",
   "swab", "sync", "excl", "nocreat", "notrunc", "noerror", "fdatasync",
   "fsync"].map String.toList

/-- The copy with one more setting. -/
def withOperand (c : BlockCopy) (operand : Text) :
    Except CopyFault BlockCopy := do
  let unknown : CopyFault :=
    ⟨"unrecognized operand ".toList ++ quotedWord operand, true⟩
  let (name, value) ← match Text.cutAtFirst? '=' operand with
    | some cut => pure cut
    | none => throw unknown
  let wrong : CopyFault :=
    ⟨"invalid number: ".toList ++ quotedWord value, false⟩
  let number : Except CopyFault Nat :=
    match number? value with
    | some n => .ok n
    | none => .error wrong
  let size : Except CopyFault Nat := do
    let n ← number
    if n = 0 then throw wrong
    return n
  match String.ofList name with
  | "if" => return { c with source := some value }
  | "of" => return { c with target := some value }
  | "bs" => return { c with inSize := ← size, outSize := ← size }
  | "ibs" => return { c with inSize := ← size }
  | "obs" => return { c with outSize := ← size }
  | "cbs" => do
    let _ ← size
    return c
  | "count" =>
    if value.getLast? = some 'B' then
      match sizeOf? (List.dropLast value) with
      | some n => return { c with count := some (n, true) }
      | none => throw wrong
    else return { c with count := some (← number, false) }
  | "skip" => return { c with skip := ← number }
  | "iseek" => return { c with skip := ← number }
  | "seek" => return { c with seek := ← number }
  | "oseek" => return { c with seek := ← number }
  | "iflag" => return c
  | "oflag" => return c
  | "status" =>
    match String.ofList value with
    | "none" => return { c with report := .nothing }
    | "noxfer" => return { c with report := .blocks }
    | "progress" => return c
    | _ => throw ⟨"invalid status level: ".toList ++ quotedWord value, true⟩
  | "conv" =>
    let names := Text.splitOn ',' value
    match names.find? fun name => !conversionNames.contains name with
    | some name =>
        throw ⟨"invalid conversion: ".toList ++ quotedWord name, true⟩
    | none => return { c with conversions := c.conversions ++ names }
  | _ => throw unknown

/-- Is there such a conversion? -/
def converts (c : BlockCopy) (name : String) : Bool :=
  c.conversions.contains name.toList

/-- The bytes that are copied from a stream; none if they never end. -/
def bytesFrom? (c : BlockCopy) (s : Stream) : Option ByteArray :=
  let start := c.skip * c.inSize
  match c.count with
  | some (n, isBytes) =>
    let size := if isBytes then n else n * c.inSize
    some ((s.take (start + size)).extract start (start + size))
  | none =>
      if s.isEndless then none else some (s.bytes.extract start s.bytes.size)

/-- A byte as it is copied. -/
def convert (c : BlockCopy) (b : UInt8) : UInt8 :=
  if c.converts "ucase" && 97 ≤ b && b ≤ 122 then b - 32
  else if c.converts "lcase" && 65 ≤ b && b ≤ 90 then b + 32
  else b

/-- What a target holds after bytes were copied to it. -/
def onTarget (c : BlockCopy) (before bytes : ByteArray) : ByteArray :=
  let start := c.seek * c.outSize
  let kept := before.extract 0 start
  let gap := Stream.repeated (ByteArray.empty.push 0) (start - kept.size)
  let after :=
    if c.converts "notrunc" then
      before.extract (start + bytes.size) before.size
    else .empty
  kept ++ gap ++ bytes ++ after

/-- How many full blocks and how many others make so many bytes. -/
def blockCount (size blockSize : Nat) : Text :=
  Number.decimal (size / blockSize) ++ '+' ::
    Number.decimal (if size % blockSize = 0 then 0 else 1)

/-- What is told of a copy of so many bytes. -/
def reportLines (c : BlockCopy) (size : Nat) : List Text :=
  let blocks := [blockCount size c.inSize ++ " records in".toList,
    blockCount size c.outSize ++ " records out".toList]
  match c.report with
  | .all =>
      blocks
        ++ [Number.decimal size ++ " bytes copied, 0 s, Infinity B/s".toList]
  | .blocks => blocks
  | .nothing => []

end BlockCopy

section Utilities

variable {m : Type → Type} [Monad m] [FileTree m]

/-- Copies blocks. -/
def dd : Utility m := fun self arguments => do
  match arguments.foldlM BlockCopy.withOperand BlockCopy.standard with
  | .error fault =>
    if fault.advises then misused self 1 fault.message
    else
      protest self fault.message
      return 1
  | .ok c =>
    let refuse (verb : String) (p : Path) (e : FileError) : Eval m Nat := do
      protest self
        (verb.toList ++ ' ' :: quotedPath p ++ ": ".toList ++ reasonText e)
      return 1
    let opened ← match c.source with
      | some p => openFile p
      | none => pure (.ok (← drain 0))
    match opened with
    | .error e => refuse "failed to open" (c.source.getD []) e
    | .ok stream =>
      match c.bytesFrom? stream with
      | none => throw .unfinished
      | some bytes =>
        let converted :=
          Stream.ofBytes
            (bytes.foldl (fun out b => out.push (c.convert b)) .empty)
        match c.target with
        | none => emit 1 converted
        | some p =>
          let before ← match ← openFile p with
            | .ok stream => pure stream.bytes
            | .error _ => pure .empty
          let after := c.onTarget before converted.bytes
          if let .error e ← writeFile p false (.ofBytes after) then
            return ← refuse "failed to open" p e
        emitLines 2 (c.reportLines bytes.size)
        return 0

end Utilities

end GridScript.Shell
