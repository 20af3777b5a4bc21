/-
The commands of the command line. Each reads files, and prints a text or
writes files. What a command prints for the user to see is gathered in a
report, with the code that the program ends with.
-/
import GridScript.CommandLine.Options
import GridScript.Document.File
import GridScript.Document.Run
import GridScript.Settings.File

namespace GridScript.CommandLine

-- ======================================================== reports

/-- What the program prints, and the code that it ends with. -/
structure Report where
  code : Nat
  output : Text
  errors : Text

/-- How the program is used. -/
def usage : Text :=
  Text.unlines (["Usage: sheetscript [OPTIONS] <COMMAND> [ARGS]",
    "",
    "Commands:",
    "  new <SCRIPT>                Write an empty script and its history",
    "  normalize <LOG>             Print the canonical form of a command log",
    "  compose <SCRIPT> <LOG>      Replace the generated region of SCRIPT with LOG",
    "  extract <SCRIPT>            Print the generated region without aliases",
    "  history <SCRIPT>            Print the history JSON rebuilt from SCRIPT",
    "  run <SCRIPT>                Execute SCRIPT and print the project snapshot",
    "  export <SCRIPT|SNAPSHOT>    Print a self-contained NumPy script",
    "",
    "Options:",
    "  --config <FILE>             Read settings from FILE instead of the user config",
    "  --timeout <SECS>            Run timeout in seconds",
    "  --module-dir <DIR>          Directory containing the helper module",
    "  --include-formulas          (export) Rebuild and apply formulas",
    "  --no-labels                 (export) Leave out label arrays",
    "  -h, --help                  Print help"].map String.toList)

-- ======================================================== failures

/-- Why a command fails. -/
inductive Failure where
  | unknownCommand (name : Text)
  /-- The command has fewer arguments than this. -/
  | missingArgument (command : Text) (needed : Nat)
  | alreadyThere (path : Path)
  | unreadable (path : Path) (e : FileError)
  | document (e : DocumentFileError)
  /-- A file that should hold a snapshot does not. -/
  | noSnapshot
  | run (e : RunError)

namespace Failure

/-- What caused a failed run, where it has a cause of its own. -/
def runCause : RunError → Text
  | .launch e => ": ".toList ++ e.message
  | _ => []

/-- The wording of a failure, with its causes. -/
def message : Failure → Text
  | unknownCommand name => "Unknown command: ".toList ++ name
  | missingArgument command needed =>
    command ++ " requires ".toList ++ Number.decimal needed
      ++ " argument(s)".toList
  | alreadyThere path => path ++ " already exists".toList
  | unreadable path e =>
      "Failed to read ".toList ++ path ++ ": ".toList ++ e.message
  | document e => e.message ++ ": ".toList ++ e.reason
  | noSnapshot => "JSON error: the text is no project".toList
  | run e => e.message ++ runCause e

end Failure

/-- The line that tells of an error. -/
def errorLine (message : Text) : Text := "Error: ".toList ++ message ++ ['\n']

-- ======================================================== commands

section Commands

variable {m : Type → Type} [Monad m] [FileStore m] [ProcessHost m]

/-- What a command that can fail gives. What it prints for errors is kept
also when it fails. -/
abbrev Action (m : Type → Type) := ExceptT Failure (StateT Text m)

/-- What a store or a process gives, as part of a command. -/
def perform {α : Type} (act : m α) : Action m α :=
  ExceptT.lift (StateT.lift act)

/-- The argument of a command at a place. -/
def argument (command : Text) (arguments : List Text) (n : Nat) :
    Action m Path :=
  match arguments[n]? with
  | some path => return path
  | none => throw (.missingArgument command (n + 1))

/-- The text of a file. -/
def readText (path : Path) : Action m Text := do
  match ← perform (FileStore.read path) with
  | .ok contents => return contents.toList
  | .error e => throw (.unreadable path e)

/-- The settings of a run: those of a file, overruled by the options. -/
def runConfig (userConfig : Option Path) (o : Options) :
    Action m RunConfig := do
  let config ← match o.configFile <|> userConfig with
    | some file => perform (Settings.load file)
    | none => pure .standard
  return { config with
    moduleDir := o.moduleDir <|> config.moduleDir
    timeoutSeconds := o.timeoutSeconds.getD config.timeoutSeconds }

/-- Runs a script and gives the project that it builds. -/
def runScript (userConfig : Option Path) (o : Options) (path : Path) :
    Action m Project := do
  let runner := Runner.ofConfig (← runConfig userConfig o)
  let counters := RunCounters.empty
  match ← perform (Document.load counters.fresh path) with
  | .error e => throw (.document e)
  | .ok d =>
    let (ticket, d, counters) := d.beginRun counters.add
    let result ← perform (runner.run counters d.script ticket)
    if let .ok output := result then set output.errors
    match d.applyResult counters ticket result with
    | (.error e, _) => throw (.run e)
    | (.ok _, d) => return d.project

/-- Writes a new script. -/
def new (userConfig : Option Path) (o : Options) (path : Path) :
    Action m Text := do
  if ← perform (FileStore.isThere path) then throw (.alreadyThere path)
  let config ← runConfig userConfig o
  match ← perform ((Document.blank 0 config.helperModule).save (some path))
    with
  | (.error e, _) => throw (.document e)
  | (.ok _, _) => return []

/-- The project of a snapshot, or of a script that has to be run for it. -/
def projectOf (userConfig : Option Path) (o : Options) (path : Path) :
    Action m Project := do
  if Path.extension? path = some "json".toList then
    match Project.parse? (← readText path) with
    | some project => return project
    | none => throw .noSnapshot
  else runScript userConfig o path

/-- Performs a command and gives what it prints. -/
def performCommand (userConfig : Option Path) (o : Options) (command : Text)
    (arguments : List Text) : Action m Text := do
  let path (n : Nat) : Action m Path := argument command arguments n
  match String.ofList command with
  | "new" => new userConfig o (← path 0)
  | "normalize" => return Script.normalizeText (← readText (← path 0))
  | "compose" =>
    let script ← readText (← path 0)
    let log ← readText (← path 1)
    return Script.compose script (Script.normalizeText log)
  | "extract" => return Script.generatedPart (← readText (← path 0))
  | "history" =>
      return (History.ofScript (← readText (← path 0))).text ++ ['\n']
  | "run" => return (← runScript userConfig o (← path 0)).text ++ ['\n']
  | "export" =>
      return Export.script (← projectOf userConfig o (← path 0)) o.export_
  | _ => throw (.unknownCommand command)

/-- Does what the arguments ask for. -/
def respond (userConfig : Option Path) (arguments : List Text) : m Report := do
  match Options.read arguments with
  | .error (.unknown option) =>
    return ⟨1, [], errorLine (Options.Misuse.unknown option).message ++ usage⟩
  | .error misuse => return ⟨1, [], errorLine misuse.message⟩
  | .ok .help => return ⟨0, [], usage⟩
  | .ok (.command o) =>
    match o.positional with
    | [] => return ⟨1, [], usage⟩
    | command :: rest =>
      match ← (performCommand userConfig o command rest).run.run [] with
      | (.ok output, errors) => return ⟨0, output, errors⟩
      | (.error e, errors) => return ⟨1, [], errors ++ errorLine e.message⟩

end Commands

end GridScript.CommandLine
