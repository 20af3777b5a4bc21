/-
What programs have in common: they are called by a name, which they use in
their messages; they read options, and files or what is given to them; and
they print and end with a status.
-/
import GridScript.Shell.Machine
import GridScript.Shell.Options
import GridScript.Shell.Quotation

namespace GridScript.Shell

section Utilities

variable {m : Type → Type} [Monad m] [FileTree m]

/-- A program: from the name it is called by and its arguments, what it does
and its status. -/
abbrev Utility (m : Type → Type) := Text → List Text → Eval m Nat

-- ======================================================== messages

/-- A complaint of a program. -/
def protest (self what : Text) : Eval m Unit :=
  emitText 2 (self ++ ": ".toList ++ what ++ ['\n'])

/-- A complaint about arguments. -/
def misused (self : Text) (status : Nat) (what : Text) : Eval m Nat := do
  protest self what
  emitText 2
    ("Try '".toList ++ self ++ " --help' for more information.\n".toList)
  return status

/-- The status of success or failure. -/
def okStatus (fine : Bool) : Nat := if fine then 0 else 1

-- ======================================================== options

/-- The letters that stand for the words which ask about the program. -/
def helpLetter : Char := '\x01'

/-- The letter that stands for the word which asks for the version. -/
def versionLetter : Char := '\x02'

/-- The table with the words that ask about the program. -/
def withQuestions (table : OptionTable) : OptionTable :=
  { table with
    words :=
      table.words
        ++ [("help".toList, helpLetter), ("version".toList, versionLetter)]
    silent := [helpLetter, versionLetter] ++ table.silent }

/-- Answers what was asked about the program first; tells whether anything
was. -/
def answers (self : Text) (r : OptionsRead) (operands : String) :
    Eval m Bool := do
  match r.options.find? fun o => o.letter = helpLetter
    || o.letter = versionLetter with
  | some o =>
    emitLines 1 [if o.letter = helpLetter then
        "Usage: ".toList ++ self ++ " [OPTION]...".toList ++ operands.toList
      else self ++ " 9.4".toList]
    return true
  | none => return false

/-- A program with options. Misuse has a status of its own. -/
def withOptions (table : OptionTable) (misuse : Nat)
    (act : Text → OptionsRead → Eval m Nat) : Utility m :=
  fun self arguments => do
  match (withQuestions table).read arguments with
  | .error fault => misused self misuse fault.message
  | .ok r => if ← answers self r "" then return 0 else act self r

/-- The number that an operand of an option spells, with a letter for a
multiple of it. -/
def sizeOf? (t : Text) : Option Nat :=
  let digits := t.takeWhile Char.isDigit
  let factor : Option Nat :=
    match String.ofList (t.dropWhile Char.isDigit) with
    | "" => some 1
    | "b" => some 512
    | "K" => some 1024
    | "k" => some 1024
    | "kB" => some 1000
    | "M" => some 1048576
    | "MB" => some 1000000
    | "G" => some 1073741824
    | _ => none
  if digits.isEmpty then none else factor.map (Number.ofDigits 0 digits * ·)

-- ======================================================== input

/-- How a program words that a file cannot be opened, or read. -/
structure Wording where
  opening : Text → Text
  reading : Text → Text

/-- The wording that only names the file. -/
def Wording.bare : Wording := ⟨shownPath, shownPath⟩

/-- The wording that tells what was tried. -/
def Wording.full : Wording where
  opening p := "cannot open ".toList ++ quotedPath p ++ " for reading".toList
  reading p := "error reading ".toList ++ quotedPath p

/-- The complaint about a file. -/
def Wording.complaint (w : Wording) (p : Path) (e : FileError) : Text :=
  (if e = .isDirectory then w.reading p else w.opening p) ++ ": ".toList
    ++ reasonText e

/-- The streams of files, by their names, or what is given if there are no
files; and whether all of them could be read. -/
def streamsOf (self : Text) (w : Wording) (operands : List Text) :
    Eval m (List (Text × Stream) × Bool) := do
  if operands.isEmpty then return ([(['-'], ← drain 0)], true)
  let mut all : List (Text × Stream) := []
  let mut fine := true
  for operand in operands do
    let opened ← if operand = ['-'] then pure (.ok (← drain 0))
        else openFile operand
    match opened with
    | .ok stream => all := all ++ [(operand, stream)]
    | .error e =>
      protest self (w.complaint operand e)
      fine := false
  return (all, fine)

/-- The streams of files one after the other. -/
def gather (self : Text) (w : Wording) (operands : List Text) :
    Eval m (Stream × Bool) := do
  let (all, fine) ← streamsOf self w operands
  return (all.foldl (fun s next => s.append next.2) .empty, fine)

/-- The lines of a stream; one that never ends has none to be looked at. -/
def linesOf (s : Stream) : Eval m (List Text) := do
  if s.isEndless then throw .unfinished
  let ls := Text.splitOn '\n' (Stream.decode s.bytes)
  return if ls.getLast? = some [] then ls.dropLast else ls

/-- The bytes of a list. -/
def bytesOf (bs : List UInt8) : Stream :=
  .ofBytes (bs.foldl ByteArray.push .empty)

end Utilities

end GridScript.Shell
