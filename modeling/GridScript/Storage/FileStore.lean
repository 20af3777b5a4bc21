/-
What the library asks of the place where files are kept. Three requests
are enough for documents: what stands at a path, what a file holds, and
that a file hold something else. Commands ask for more, since they also
make and remove things and look at directories. A store answers each
request with a result or with the reason why not, so nothing in the library
depends on which store it is: the machine's files, or a disk that is a
value.
-/
import GridScript.Storage.Path
import GridScript.Text.Utf8

namespace GridScript

/-- Why a store of files, or a place where they are started, refuses. -/
inductive FileError where
  | notFound
  | permissionDenied
  | notDirectory
  | isDirectory
  | nameTooLong
  /-- A name holds the character that ends names. -/
  | badName
  /-- The file holds bytes that are no text. -/
  | notText
  /-- An argument holds the character that ends arguments. -/
  | badArgument
  | argumentTooLong
  | alreadyThere
  | notEmpty
  | other (message : Text)
  deriving DecidableEq

/-- The wording of a refusal, with the number of the system's error. -/
def FileError.message : FileError → Text
  | notFound => "No such file or directory (os error 2)".toList
  | permissionDenied => "Permission denied (os error 13)".toList
  | notDirectory => "Not a directory (os error 20)".toList
  | isDirectory => "Is a directory (os error 21)".toList
  | nameTooLong => "File name too long (os error 36)".toList
  | badName => "file name contained an unexpected NUL byte".toList
  | notText => "stream did not contain valid UTF-8".toList
  | badArgument => "nul byte found in provided data".toList
  | argumentTooLong => "Argument list too long (os error 7)".toList
  | alreadyThere => "File exists (os error 17)".toList
  | notEmpty => "Directory not empty (os error 39)".toList
  | other message => message

/-- What stands at a path. -/
inductive FileEntry where
  /-- A file of some bytes. -/
  | file (size : Nat)
  | directory
  deriving DecidableEq

/-- A place where files are kept. -/
class FileStore (m : Type → Type) where
  /-- What stands at a path. -/
  entry : Path → m (Except FileError FileEntry)
  /-- What a file holds. -/
  read : Path → m (Except FileError String)
  /-- Makes a file hold a text, and makes the file if it is not there. -/
  write : Path → String → m (Except FileError Unit)

/-- A place where files are kept in directories that can be looked at and
changed. -/
class FileTree (m : Type → Type) extends FileStore m where
  /-- The directory from which relative paths set out, from the root on. -/
  workingDirectory : m Path
  /-- The names in a directory, in order. -/
  list : Path → m (Except FileError (List Text))
  /-- Makes a directory where nothing stands. -/
  makeDirectory : Path → m (Except FileError Unit)
  /-- Removes a file, or a directory in which nothing stands. -/
  remove : Path → m (Except FileError Unit)

namespace FileStore

variable {m : Type → Type} [Monad m] [FileStore m]

/-- Does anything stand at a path? -/
def isThere (p : Path) : m Bool := do
  match ← entry p with
  | .ok _ => return true
  | .error _ => return false

/-- Does a file stand at a path? -/
def isFile (p : Path) : m Bool := do
  match ← entry p with
  | .ok (.file _) => return true
  | _ => return false

end FileStore

end GridScript
