/-
Starting programs. The programs that can be started are those this library
knows itself, so that what a run does is decided by its files alone: no
other process comes into it. Any store of files is good enough to start
them on.
-/
import GridScript.Run.Process
import GridScript.Shell.Evaluation

namespace GridScript.Shell

/-- Where programs are looked for. -/
def directories : List Path := ["/usr/bin".toList, "/bin".toList]

/-- How deep evaluation may go before commands are taken to run for ever. -/
def depthBudget : Nat := 100000

/-- The number of the first process. -/
def firstProcess : Nat := 100

/-- A process before its first command, in a directory. -/
def fresh (l : Launch) (directory : Path) : Machine where
  dialect := .plain
  name := l.program
  process := firstProcess
  self := firstProcess
  above := []
  arguments := []
  bindings :=
    [("PYTHONPATH".toList, l.modulePath),
      ("PATH".toList, "/usr/bin:/bin".toList), ("HOME".toList, directory)]
  exported := ["PYTHONPATH".toList, "PATH".toList, "HOME".toList]
  protected_ := []
  hidden := none
  functions := []
  aliases := []
  status := 0
  substitution := none
  tested := false
  channels := [(0, .source 0), (1, .buffer 0), (2, .buffer 1)]
  buffers := #[.empty, .empty]
  sources := #[.empty]
  background := []
  ended := []
  lastJob := none
  processes := firstProcess
  tracked := []
  options := []
  traps := []
  pending := []
  command := none
  line := 0
  lastLine := 0
  loops := 0
  calls := 0
  optionPlace := (1, 0)
  directory := directory
  mask := 18
  runnable := []
  clock := 0
  deadline := l.timeout

/-- The exit code of a process that has stopped; none if a signal stopped
it. -/
def exitCode (s : Machine) (result : Except Stop Unit) : Option Nat :=
  match endingOf s.status result with
  | .ok (.status code) => some code
  | .ok (.signal _) => none
  | .error _ => some (s.status % 256)

section Starting

variable {m : Type → Type} [Monad m] [FileTree m]

/-- Lets the commands that were not waited for end; their output counts,
and the time they take does not. -/
def finish (s : Machine) : m Machine := do
  let last := (s.clock + 1000000000)
  return (← (runBackground depthBudget).run.run { s with deadline := last }).2

/-- Starts a program that is known, and gives what became of it. -/
def endOf (l : Launch) (name : Text) : m ProcessEnd := do
  let s := fresh l (← FileTree.workingDirectory)
  let act : Eval m Unit :=
    runProgram depthBudget l.program l.program (.program name) l.arguments
  let (result, s) ← act.run.run s
  if let .error .unfinished := result then return .unfinished
  let ended ← finish s
  return .finished (exitCode s result) (ended.buffers.getD 0 .empty).bytes
    (ended.buffers.getD 1 .empty).bytes

/-- Starts a program that is known and waits for its end. The script stands
in its file for as long as that takes. -/
def startKnown (l : Launch) (name : Text) : m ProcessEnd := do
  let _ ← FileStore.write l.scriptFile (String.ofList l.script)
  let ending ← endOf l name
  let _ ← FileTree.remove l.scriptFile
  return ending

/-- How many bytes an argument may have. -/
def argumentLimit : Nat := 131071

/-- The program that is started, or why none is. What is handed over is
looked at before the program is. -/
def programOf (l : Launch) : Except FileError Text :=
  let texts := l.program :: l.modulePath :: l.arguments
  if texts.any (·.contains '\x00') then .error .badArgument
  else
    match programAt? l.program with
    | none => .error .permissionDenied
    | some name =>
      if texts.any fun t => argumentLimit < Text.byteLength t then
        .error .argumentTooLong
      else .ok name

/-- Starts a program. -/
def startOf (l : Launch) : m ProcessEnd := do
  match programOf l with
  | .error e => return .refused e
  | .ok name => if l.timeout = 0 then return .unfinished else startKnown l name

end Starting

instance {m : Type → Type} [Monad m] [FileTree m] : ProcessHost m where
  programDirectories := return directories
  start := startOf

end GridScript.Shell
