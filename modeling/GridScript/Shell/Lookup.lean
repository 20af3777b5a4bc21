/-
Finding what a command starts: a program that this library knows, or a file
that was made a program. A name without a slash is looked for in the
directories of a variable.
-/
import GridScript.Shell.Machine
import GridScript.Shell.Program

namespace GridScript.Shell

/-- What can be started. -/
inductive Startable where
  /-- A program that is known by a name. -/
  | program (name : Text)
  /-- A file that holds commands. -/
  | script
  deriving DecidableEq

/-- Where programs look for others if no variable says so. -/
def standardDirectories : Text := "/bin:/usr/bin".toList

/-- The directories that a variable lists; an empty one is the directory of
the shell. -/
def directoriesIn (t : Text) : List Path := Text.splitOn ':' t

/-- A name in one of the listed directories. -/
def placeIn (directory : Path) (name : Text) : Path :=
  if directory.isEmpty then name else Path.join directory name

/-- The program that the first line of a file names, and its operand. -/
def interpreter? : Text → Option (Path × Option Text)
  | '#' :: '!' :: t => some (ofLine t)
  | _ => none
where
  /-- The program and its operand in a line. -/
  ofLine (t : Text) : Path × Option Text :=
    let isBlank (c : Char) : Bool := c == ' ' || c == '\t'
    let line := (t.takeWhile (· != '\n')).dropWhile isBlank
    let line := (line.reverse.dropWhile isBlank).reverse
    let program := line.takeWhile (!isBlank ·)
    let operand := (line.drop program.length).dropWhile isBlank
    (program, if operand.isEmpty then none else some operand)

section Looking

variable {m : Type → Type} [Monad m] [FileTree m]

/-- What a path starts, or why it starts nothing. -/
def startableAt (p : Path) : Eval m (Except FileError Startable) := do
  let place ← placeOf p
  match programAt? (← located p) with
  | some name => return .ok (.program name)
  | none =>
    match ← entryAt p with
    | .error e => return .error e
    | .ok .directory => return .error .permissionDenied
    | .ok _ =>
      if !(← get).runnable.contains place then return .error .permissionDenied
      let contents :=
        ((← openFile p).toOption.map fun s => Stream.decode s.bytes).getD []
      match interpreter? contents with
      | none => return .ok .script
      | some (program, _) =>
        let isKnown := (programAt? (← located program)).isSome
        return if isKnown || (← entryAt program).isOk then .ok .script
          else .error .notFound

/-- Can the file at a path be started? -/
def isStartable (p : Path) : Eval m Bool := return (← startableAt p).isOk

/-- The first place of a name in directories about which something is
so. -/
def placeWhere? (test : Path → Eval m Bool) (directories : List Path)
    (name : Text) :
    Eval m (Option Path) := firstThat test (directories.map (placeIn · name))

/-- Does a file stand at a path? -/
def isFileAt (p : Path) : Eval m Bool := do
  match ← entryAt p with
  | .ok (.file _) => return true
  | _ => return false

/-- Does anything stand at a path? -/
def isThereAt (p : Path) : Eval m Bool := return (← entryAt p).isOk

/-- The directories in which names are looked for; others if no variable
lists them. -/
def searchPath (others : Text) : Eval m (List Path) := do
  return directoriesIn (((← get).bindings.lookup "PATH".toList).getD others)

/-- The file that a name starts, if there is one in some directories: the
name itself if it holds a slash. -/
def commandFile? (directories : List Path) (name : Text) :
    Eval m (Option Path) := do
  if name.contains '/' then return some name
  if name.isEmpty then return none
  placeWhere? isStartable directories name

/-- Why a name starts nothing that was looked for in directories. -/
def lookupFault (directories : List Path) (name : Text) :
    Eval m FileError := do
  return if (← placeWhere? isThereAt directories name).isSome then
    .permissionDenied
    else .notFound

/-- What a name starts, with its file, or why it starts nothing. -/
def findStartable (name : Text) :
    Eval m (Except FileError (Path × Startable)) := do
  let directories ← searchPath standardDirectories
  match ← commandFile? directories name with
  | none =>
    if name.isEmpty then return .error .notFound
    return .error (← lookupFault directories name)
  | some p =>
    match ← startableAt p with
    | .ok what => return .ok (p, what)
    | .error e => return .error e

end Looking

end GridScript.Shell
