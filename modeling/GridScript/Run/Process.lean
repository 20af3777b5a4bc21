/-
What a run asks of the place where programs are started. A process is
given its arguments, the path on which modules are looked for and the text
of one script file, and it has a time after which it is given up. It
answers with what it printed and how it ended.
-/
import GridScript.Storage.FileStore

namespace GridScript

/-- A program that is to be started. -/
structure Launch where
  program : Path
  arguments : List Text
  /-- The directories in which modules are looked for. -/
  modulePath : Text
  /-- The file that the script is given in, and what it holds. -/
  scriptFile : Path
  script : Text
  /-- The time after which the process is given up, in milliseconds. -/
  timeout : Nat

/-- What became of a process. -/
inductive ProcessEnd where
  /-- It could not be started. -/
  | refused (e : FileError)
  /-- It had not ended when its time was up. -/
  | unfinished
  /-- It ended, with a code unless it was stopped by a signal. -/
  | finished (code : Option Nat) (output errors : ByteArray)

/-- A place where programs are started. -/
class ProcessHost (m : Type → Type) where
  /-- The directories in which programs are looked for, in order. -/
  programDirectories : m (List Path)
  /-- Starts a program and waits for its end. -/
  start : Launch → m ProcessEnd

end GridScript
