/-
Documents in files. A script is kept as text, with its history in a file
beside it. The history is a help and not a need: one that is missing or
cannot be read is made again from the script.
-/
import GridScript.Document.Basic
import GridScript.Storage.FileStore

namespace GridScript

/-- Why a document cannot be read or written. -/
inductive DocumentFileError where
  /-- There is no path to write to. -/
  | noPath
  /-- The file is larger than a script may be. -/
  | tooLarge (path : Path) (size limit : Nat)
  | file (e : FileError)
  deriving DecidableEq

namespace DocumentFileError

/-- What went wrong. -/
def reason : DocumentFileError → Text
  | noPath => "No file path set".toList
  | tooLarge path size limit =>
    "Refusing to read ".toList ++ path ++ ": script too large (".toList
      ++ Number.decimal size ++
      " bytes, max ".toList ++ Number.decimal limit ++ [')']
  | file e => e.message

/-- The wording of the error. -/
def message (e : DocumentFileError) : Text := "IO error: ".toList ++ e.reason

end DocumentFileError

namespace Document

/-- How many bytes a script may have. -/
def scriptLimit : Nat := 16 * 1048576

variable {m : Type → Type} [Monad m] [FileStore m]

/-- Reads a file that may not be larger than a script. -/
def readScript (path : Path) : m (Except DocumentFileError Text) := do
  match ← FileStore.entry path with
  | .error e => return .error (.file e)
  | .ok (.file size) =>
    if scriptLimit < size then return .error (.tooLarge path size scriptLimit)
    else return (← FileStore.read path).map String.toList |>.mapError .file
  | .ok .directory =>
      return (← FileStore.read path).map String.toList |>.mapError .file

/-- The history beside a script, if there is one that can be read. -/
def readHistory (path : Path) : m (Option History) := do
  match ← FileStore.read (Path.history path) with
  | .ok contents => return History.parse? contents.toList
  | .error _ => return none

/-- Reads a document. -/
def load (counter : Nat) (path : Path) :
    m (Except DocumentFileError Document) := do
  match ← readScript path with
  | .error e => return .error e
  | .ok script =>
    return .ok { ofScript counter script (← readHistory path) with
        path := some path }

/-- The contents of the file that a history is kept in. -/
def historyContents (d : Document) : String :=
  String.ofList (d.history.text ++ ['\n'])

/-- Writes a script and its history. -/
def writeFiles (d : Document) (path : Path) : m (Except FileError Unit) := do
  match ← FileStore.write path (String.ofList d.script) with
  | .error e => return .error e
  | .ok _ => FileStore.write (Path.history path) d.historyContents

/-- Writes the document, to a path or else to where it was last. -/
def save (d : Document) (path : Option Path) :
    m (Except DocumentFileError Path × Document) := do
  match path <|> d.path with
  | none => return (.error .noPath, d)
  | some path =>
    match ← d.writeFiles path with
    | .error e => return (.error (.file e), d)
    | .ok _ =>
        return (.ok path, { d with path := some path, modified := false })

end Document

end GridScript
