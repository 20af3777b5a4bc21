/-
Signals: their names and numbers, what they do to a process that has not
said otherwise, and how a shell tells of a process that one has ended.
-/
import GridScript.Number.Natural
import GridScript.Text.Basic

namespace GridScript.Shell

/-- A signal by its number. Zero stands for the end of the shell itself. -/
structure Signal where
  number : Nat
  deriving DecidableEq

namespace Signal

/-- The names of the signals from zero on. -/
def names : List Text :=
  ["EXIT", "HUP", "INT", "QUIT", "ILL", "TRAP", "ABRT", "BUS", "FPE", "KILL",
   "USR1", "SEGV", "USR2", "PIPE", "ALRM", "TERM", "STKFLT", "CHLD", "CONT",
   "STOP", "TSTP", "TTIN", "TTOU",
   "URG", "XCPU", "XFSZ", "VTALRM", "PROF", "WINCH", "IO", "PWR", "SYS"].map
     String.toList

/-- The end of the shell. -/
def exit : Signal := ⟨0⟩

/-- The one that ends a process which nobody can stop from ending. -/
def kill : Signal := ⟨9⟩

/-- The one that ends a process whose output nobody reads. -/
def pipe : Signal := ⟨13⟩

/-- The one that asks a process to end. -/
def terminate : Signal := ⟨15⟩

/-- The name of a signal. -/
def name (s : Signal) : Text := names.getD s.number (Number.decimal s.number)

/-- The signal of a name, with or without what all names can begin with, or
of a number. -/
def read? (t : Text) : Option Signal :=
  if Number.isDigits t then
    let n := Number.ofDigits 0 t
    if n < 65 then some ⟨n⟩ else none
  else
    let t := Text.upper t
    (names.idxOf? (((Text.afterStart? "SIG".toList t).getD t))).map Signal.mk

/-- Does the signal end a process? -/
def ends (s : Signal) : Bool := 
  !([0, 17, 18, 19, 20, 21, 22, 23, 28].contains s.number)

/-- Does the signal make a process wait for another? -/
def halts (s : Signal) : Bool := [19, 20, 21, 22].contains s.number

/-- How a shell tells of a process that the signal ended, if it does. -/
def report? (s : Signal) : Option Text :=
  match s.number with
  | 1 => some "Hangup".toList
  | 3 => some "Quit".toList
  | 4 => some "Illegal instruction".toList
  | 5 => some "Trace/breakpoint trap".toList
  | 6 => some "Aborted".toList
  | 7 => some "Bus error".toList
  | 8 => some "Floating point exception".toList
  | 9 => some "Killed".toList
  | 10 => some "User defined signal 1".toList
  | 11 => some "Segmentation fault".toList
  | 12 => some "User defined signal 2".toList
  | 14 => some "Alarm clock".toList
  | 15 => some "Terminated".toList
  | 16 => some "Stack fault".toList
  | 24 => some "CPU time limit exceeded".toList
  | 25 => some "File size limit exceeded".toList
  | 26 => some "Virtual timer expired".toList
  | 27 => some "Profiling timer expired".toList
  | 29 => some "I/O possible".toList
  | 30 => some "Power failure".toList
  | 31 => some "Bad system call".toList
  | _ => none

end Signal

end GridScript.Shell
