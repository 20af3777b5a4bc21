/-
How a run ends: with the project that the script reported, or with one of
six failures.
-/
import GridScript.Project.Basic
import GridScript.Storage.FileStore

namespace GridScript

/-- What a run that succeeded leaves behind. -/
structure RunOutput where
  project : Project
  /-- What was printed before the report. -/
  log : Text
  /-- What was printed for errors. -/
  errors : Text

/-- Why a run failed. -/
inductive RunError where
  /-- The settings cannot be used. -/
  | config (reason : Text)
  /-- The interpreter could not be started. -/
  | launch (e : FileError)
  /-- The script ended with a code other than zero, or with none. -/
  | exit (code : Option Int) (errors : Text)
  /-- The script reported no project. -/
  | malformed (reason : Text)
  /-- The time was up, in milliseconds. -/
  | timeout (millis : Nat)
  /-- A newer run has begun. -/
  | superseded
  deriving DecidableEq

/-- A span of time in the largest unit that gives a whole part, with the
thousandths that are not zero. -/
def durationText (millis : Nat) : Text :=
  let seconds := Number.decimal (millis / 1000)
  let thousandths := Number.decimalPadded 3 (millis % 1000)
  let fraction := (thousandths.reverse.dropWhile (· == '0')).reverse
  if millis = 0 then "0ns".toList
  else if millis < 1000 then Number.decimal millis ++ "ms".toList
  else if fraction.isEmpty then seconds ++ ['s']
  else seconds ++ '.' :: fraction ++ ['s']

/-- The text of an exit code. -/
def exitCodeText : Option Int → Text
  | some code => "Some(".toList ++ Number.integer code ++ [')']
  | none => "None".toList

/-- The wording of a failure. -/
def RunError.message : RunError → Text
  | config reason => "Configuration error: ".toList ++ reason
  | launch e => "Failed to launch interpreter: ".toList ++ e.message
  | exit code errors =>
    "Script failed (exit code ".toList ++ exitCodeText code ++ "):\n".toList
      ++ errors
  | malformed reason =>
      "Script finished without a usable project snapshot: ".toList ++ reason
  | timeout millis => "Script timed out after ".toList ++ durationText millis
  | superseded => "Run was superseded by a newer run".toList

end GridScript
