/-
The program. The files of the machine are a store, on which the command
line is answered; what the answer prints is printed, and the process ends
with its code.
-/
import GridScript.CommandLine.Commands
import GridScript.Shell.Host

namespace GridScript

/-- Why the system refuses. -/
def FileError.ofSystem : IO.Error → FileError
  | .noFileOrDirectory _ _ _ => .notFound
  | .permissionDenied _ _ _ => .permissionDenied
  | .inappropriateType _ code _ =>
      if code = 21 then .isDirectory else .notDirectory
  | .alreadyExists _ _ _ => .alreadyThere
  | .unsatisfiedConstraints 39 _ => .notEmpty
  | .invalidArgument _ 36 _ => .nameTooLong
  | e => .other e.toString.toList

/-- Asks the system, and keeps the reason if it refuses. -/
def ask {α : Type} (act : IO α) : IO (Except FileError α) := do
  match ← act.toBaseIO with
  | .ok a => return .ok a
  | .error e => return .error (.ofSystem e)

/-- The bytes of a file of the machine. -/
def fileBytes (p : Path) : IO (Except FileError ByteArray) := do
  if p.contains '\x00' then return .error .badName
  ask (IO.FS.readBinFile (String.ofList p))

instance : FileStore IO where
  entry p := do
    match ← fileBytes p with
    | .ok bytes => return .ok (.file bytes.size)
    | .error .isDirectory => return .ok .directory
    | .error e => return .error e
  read p := do
    match ← fileBytes p with
    | .ok bytes => return (String.fromUTF8? bytes).elim (.error .notText) .ok
    | .error e => return .error e
  write p contents := do
    if p.contains '\x00' then return .error .badName
    ask (IO.FS.writeFile (String.ofList p) contents)

instance : FileTree IO where
  workingDirectory := return (← IO.currentDir).toString.toList
  list p := do
    match ← ask (do ((← IO.currentDir) / String.ofList p).readDir) with
    | .ok inside =>
      let names := inside.toList.map fun e => e.fileName.toList
      return .ok (names.mergeSort fun a b => (compare a b).isLE)
    | .error e => return .error e
  makeDirectory p := ask (IO.FS.createDir (String.ofList p))
  remove p := do
    match ← ask (IO.FS.removeFile (String.ofList p)) with
    | .error .isDirectory => ask (IO.FS.removeDir (String.ofList p))
    | result => return result

/-- The user's own settings file, below the directory that the environment
names for settings. -/
def userConfig? (settingsHome home : Option String) : Option Path :=
  let given := (settingsHome.map String.toList).filter Path.isAbsolute
  let base :=
    given <|> (home.map String.toList).map fun dir =>
      Path.join dir ".config".toList
  base.map fun dir => Path.join dir "sheetscript/config.toml".toList

end GridScript

/-- Answers the command line. -/
def main (arguments : List String) : IO UInt32 := do
  let config :=
    GridScript.userConfig? (← IO.getEnv "XDG_CONFIG_HOME") (← IO.getEnv "HOME")
  let report ← GridScript.CommandLine.respond config
      (arguments.map String.toList)
  IO.eprint (String.ofList report.errors)
  IO.print (String.ofList report.output)
  return report.code.toUInt32
