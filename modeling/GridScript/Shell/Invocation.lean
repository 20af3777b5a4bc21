/-
What a shell is started to do, by its arguments.
-/
import GridScript.Shell.Builtin

namespace GridScript.Shell

/-- What a shell is started to do. -/
inductive Task where
  /-- Runs commands that are given as an argument. -/
  | source (t : Text) (name : Option Text) (arguments : List Text)
  | file (p : Path) (arguments : List Text)
  /-- Runs commands that it reads. -/
  | given (arguments : List Text)
  | missingSource
  deriving DecidableEq

/-- The options of a shell that is started: the letters that are on, whether
the first operand holds commands, whether the options were asked for, and
the operands. -/
structure Invocation where
  options : Text
  hasSource : Bool
  shows : Bool
  operands : List Text

namespace Invocation

/-- The invocation that arguments describe, after some that were read. The
budget bounds their number. -/
def readFrom : Nat → Invocation → Except OptionRefusal Invocation
  | 0, i => .ok i
  | budget + 1, i => do
    let letters (on : Bool) (cs : Text)
        (rest : List Text) : Except OptionRefusal Invocation := do
      let (options, operands) ← setLetters on
          (cs.filter (· != 'c')) rest i.options
      readFrom budget { i with
        options := options, operands := operands
        hasSource := i.hasSource || cs.contains 'c'
        shows := i.shows || (cs.contains 'o' && rest.isEmpty) }
    match i.operands with
    | ['-', '-'] :: rest => return { i with operands := rest }
    | ['-'] :: rest => return { i with operands := rest }
    | ('-' :: c :: cs) :: rest => letters true (c :: cs) rest
    | ('+' :: c :: cs) :: rest => letters false (c :: cs) rest
    | _ => return i

/-- The invocation that arguments describe. -/
def read (arguments : List Text) : Except OptionRefusal Invocation :=
  readFrom (arguments.length + 1) ⟨[], false, false, arguments⟩

/-- What the shell has to do. -/
def task (i : Invocation) : Task :=
  match i.operands with
  | [] => if i.hasSource then .missingSource else .given []
  | t :: rest =>
    if i.hasSource then .source t rest.head? (rest.drop 1)
    else if i.options.contains 's' then .given (t :: rest)
    else .file t rest

end Invocation

end GridScript.Shell
