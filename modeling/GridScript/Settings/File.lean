/-
Where settings come from: a file that the user names, or else the user's
own. A file that is missing, too large or not to be read gives the standard
settings and no error, so that a broken file keeps nobody from working.
-/
import GridScript.Settings.Reader
import GridScript.Storage.FileStore

namespace GridScript.Settings

/-- How many bytes a settings file may have. -/
def fileLimit : Nat := 1048576

/-- A directory given in a settings file, seen from where the file is. -/
def resolve (file : Path) (dir : Path) : Path :=
  match Path.parent? file with
  | some base => Path.join base dir
  | none => dir

variable {m : Type → Type} [Monad m] [FileStore m]

/-- What a settings file holds, if it can be read. -/
def contents? (file : Path) : m (Option RunConfig) := do
  match ← FileStore.entry file with
  | .ok (.file size) =>
    if fileLimit < size then return none
    else
      match ← FileStore.read file with
      | .ok contents => return read? contents.toList
      | .error _ => return none
  | _ => return none

/-- The settings of a file. -/
def load (file : Path) : m RunConfig := do
  let config := (← contents? file).getD .standard
  return { config with moduleDir := config.moduleDir.map (resolve file) }

end GridScript.Settings
