/-
Running a script in an interpreter. Before anything is started the
interpreter and the helper module have to be found. What the script prints
last, other than blank lines, has to be the snapshot of its project, and
what it printed before is its log.

A run whose ticket is not current any more is not started.
-/
import GridScript.Project.Snapshot
import GridScript.Run.Config
import GridScript.Run.Outcome
import GridScript.Run.Process
import GridScript.Run.Ticket

namespace GridScript

/-- A script runner: its settings, and the time that a run may take. -/
structure Runner where
  config : RunConfig
  /-- In milliseconds. -/
  timeout : Nat

namespace Runner

/-- The runner of settings. A run has at least a second. -/
def ofConfig (c : RunConfig) : Runner := ⟨c, 1000 * max c.timeoutSeconds 1⟩

-- ======================================================== finding

section Finding

variable {m : Type → Type} [Monad m] [FileStore m] [ProcessHost m]

/-- The first directory that holds a file of this name, with the name. -/
def searchIn (name : Path) : List Path → m (Option Path)
  | [] => return none
  | dir :: dirs => do
    let candidate := Path.join dir name
    if ← FileStore.isFile candidate then return some candidate
    else searchIn name dirs

/-- The file of a program. A name without directories is looked for where
programs are. -/
def findProgram (program : Path) : m (Option Path) := do
  if 1 < Path.depth program then
    return if ← FileStore.isFile program then some program else none
  else searchIn program (← ProcessHost.programDirectories)

/-- Does a directory hold a module, as a package or as one file? -/
def holdsModule (dir : Path) (name : Text) : m Bool := do
  let package := Path.join dir name
  if ← FileStore.isFile (Path.join package "__init__.py".toList) then
    return true
  else FileStore.isFile (Path.join dir (name ++ ".py".toList))

/-- The interpreter's file and the directory of the helper module. -/
def check (r : Runner) : m (Except RunError (Path × Path)) := do
  match ← findProgram r.config.interpreter with
  | none =>
      return .error
        (.config ("interpreter not found: ".toList ++ r.config.interpreter))
  | some interpreter =>
    match r.config.moduleDir with
    | none =>
        return .error
          (.config "helper module directory is not configured".toList)
    | some dir =>
      if ← holdsModule dir r.config.helperModule then
        return .ok (interpreter, dir)
      else
        return .error
          (.config ("helper module ".toList ++ r.config.helperModule ++
            " not found in ".toList ++ dir))

end Finding

-- ======================================================== reports

/-- The bytes of an output that are kept, as text. -/
def captured (r : Runner) (bytes : ByteArray) : Text :=
  Text.ofBytes
    (bytes.extract 0 (min bytes.size r.config.maxOutputBytes)).toList

/-- The lines of an output in front of its report, and the report: the last
line that is not blank. -/
def cutReport? (output : Text) : Option (List Text × Text) :=
  match (Text.lines output).reverse.dropWhile Text.allBlank with
  | [] => none
  | report :: before => some (before.reverse, report)

/-- What a script that ended well has reported. -/
def outputOf (output errors : Text) : Except RunError RunOutput :=
  match cutReport? output with
  | none => .error (.malformed "no output".toList)
  | some (before, report) =>
    match Project.parse? (Text.trim report) with
    | none => .error (.malformed "the report is no project at line 1".toList)
    | some project => .ok ⟨project, Text.joinWith ['\n'] before, errors⟩

/-- What a process that ended has to say. -/
def resultOf (r : Runner) : ProcessEnd → Except RunError RunOutput
  | .refused e => .error (.launch e)
  | .unfinished => .error (.timeout r.timeout)
  | .finished code output errors =>
    if code = some 0 then outputOf (r.captured output) (r.captured errors)
    else .error (.exit (code.map Int.ofNat) (r.captured errors))

-- ======================================================== running

/-- The file in which the script of a run is given. -/
def scriptFile (t : RunTicket) : Path :=
  "/tmp/sheetscript-".toList ++ Number.decimalPadded 6 t.generation
    ++ ".py".toList

/-- What is started for a script. -/
def launch (r : Runner) (interpreter dir : Path) (script : Text)
    (t : RunTicket) : Launch where
  program := interpreter
  arguments := r.config.entryArguments ++ [scriptFile t]
  modulePath := dir
  scriptFile := scriptFile t
  script := script
  timeout := r.timeout

/-- Runs a script, under a ticket that has to be current. -/
def run {m : Type → Type} [Monad m] [FileStore m] [ProcessHost m] (r : Runner)
    (cs : RunCounters) (script : Text) (t : RunTicket) :
    m (Except RunError RunOutput) := do
  match ← r.check with
  | .error e => return .error e
  | .ok (interpreter, dir) =>
    if dir.contains ':' then
      return .error
        (.config "path segment contains separator \x60:\x60".toList)
    else if !cs.isCurrent t then return .error .superseded
    else
      return r.resultOf
        (← ProcessHost.start (r.launch interpreter dir script t))

end Runner

end GridScript
