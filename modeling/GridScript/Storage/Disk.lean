/-
A disk that is a value: directories, files and programs by their place in
one tree, and a working directory from which paths that are not absolute
set out. A path is followed name by name. Every step goes through a
directory, so a path may fail in its middle even if a later `..` would have
left it again, and a `..` after a link leaves the place that the link leads
to.
-/
import GridScript.SortedMap
import GridScript.Storage.FileStore

namespace GridScript

/-- What stands at a place. -/
inductive DiskNode where
  | file (contents : String)
  | directory
  /-- A file that can be started and not be changed. -/
  | program
  /-- Another name for a place. -/
  | link (place : List Text)
  deriving DecidableEq

/-- A disk. -/
structure Disk where
  /-- What stands where, by the names from the root on. -/
  nodes : SortedMap (List Text) DiskNode
  /-- Where relative paths set out. -/
  workingPlace : List Text

namespace Disk

/-- How many bytes a name may have. -/
def nameLimit : Nat := 255

/-- How many bytes a path may have. -/
def pathLimit : Nat := 4095

/-- What stands at a place; the root is always a directory. -/
def node? (d : Disk) (place : List Text) : Option DiskNode :=
  if place.isEmpty then some .directory else d.nodes.get? place

/-- One step from a place that has to be a directory. -/
def step (d : Disk) (place : List Text) (part : Text) :
    Except FileError (List Text) :=
  match d.node? place with
  | none => .error .notFound
  | some .directory =>
    if Path.isIdle part then .ok place
    else if part == ['.', '.'] then .ok place.dropLast
    else if nameLimit < Text.byteLength part then .error .nameTooLong
    else
      match d.node? (place ++ [part]) with
      | some (.link target) => .ok target
      | _ => .ok (place ++ [part])
  | some _ => .error .notDirectory

/-- The place that a path leads to; there need be nothing there. -/
def locate (d : Disk) (p : Path) : Except FileError (List Text) :=
  if p.contains '\x00' then .error .badName
  else if p.isEmpty then .error .notFound
  else if pathLimit < Text.byteLength p then .error .nameTooLong
  else
    (Text.splitOn '/' p).foldlM d.step
      (if Path.isAbsolute p then [] else d.workingPlace)

/-- What stands at a path. -/
def look (d : Disk) (p : Path) : Except FileError DiskNode := do
  match d.node? (← d.locate p) with
  | some node => return node
  | none => throw .notFound

/-- The entry at a path. -/
def entry (d : Disk) (p : Path) : Except FileError FileEntry := do
  match ← d.look p with
  | .file contents => return .file contents.utf8ByteSize
  | .program => return .file 0
  | _ => return .directory

/-- What a file holds. -/
def read (d : Disk) (p : Path) : Except FileError String := do
  match ← d.look p with
  | .file contents => return contents
  | .program => throw .notText
  | _ => throw .isDirectory

/-- The disk with something at a place. -/
def put (d : Disk) (place : List Text) (node : DiskNode) : Disk :=
  { d with nodes := d.nodes.insert place node }

/-- The place where a file can be written. The directory that it stands in
has to be there, and a path that ends in a slash is no file's. -/
def filePlace (d : Disk) (p : Path) : Except FileError (List Text) := do
  if p.getLast? = some '/' then
    let _ ← d.locate (Path.join ((Path.parent? p).getD []) "./".toList)
    throw .isDirectory
  d.locate p

/-- The disk after a file is written. -/
def write (d : Disk) (p : Path) (contents : String) :
    Except FileError Disk := do
  let place ← d.filePlace p
  match d.node? place.dropLast, d.node? place with
  | _, some .directory => throw .isDirectory
  | _, some .program => throw .permissionDenied
  | some .directory, _ => return d.put place (.file contents)
  | none, _ => throw .notFound
  | _, _ => throw .notDirectory

/-- The names in a directory. -/
def list (d : Disk) (p : Path) : Except FileError (List Text) := do
  let place ← d.locate p
  match d.node? place with
  | none => throw .notFound
  | some .directory =>
    return d.nodes.entries.filterMap fun (other, _) =>
      if other.dropLast == place && !other.isEmpty then other.getLast?
      else none
  | some _ => throw .notDirectory

/-- The disk with a new directory. -/
def makeDirectory (d : Disk) (p : Path) : Except FileError Disk := do
  let place ← d.locate (p.reverse.dropWhile (· == '/')).reverse
  match d.node? place.dropLast, d.node? place with
  | _, some _ => throw .alreadyThere
  | some .directory, none => return d.put place .directory
  | none, none => throw .notFound
  | _, none => throw .notDirectory

/-- The disk without a file, or without an empty directory. -/
def remove (d : Disk) (p : Path) : Except FileError Disk := do
  let place ← d.locate p
  match d.node? place with
  | none => throw .notFound
  | some .program => throw .permissionDenied
  | some .directory => if !(← d.list p).isEmpty then throw .notEmpty
  | some _ => pure ()
  return { d with nodes := d.nodes.erase place }

/-- The disk with a directory at a place and at every place above it where
nothing stands. -/
def makeDirectories (d : Disk) (place : List Text) : Disk :=
  ((List.range place.length).map fun n => place.take (n + 1)).foldl
    (fun d above =>
      match d.node? above with
      | some _ => d
      | none => d.put above .directory) d

/-- The files below the working directory: their paths from there, and
what they hold. -/
def workingFiles (d : Disk) : List (Path × String) :=
  d.nodes.entries.filterMap fun (place, node) =>
    match node with
    | .file contents =>
      if d.workingPlace.isPrefixOf place then
        some (Text.joinWith ['/'] (place.drop d.workingPlace.length), contents)
      else none
    | _ => none

/-- A disk as a machine has it before anything is written: the directories
that every machine has, programs where they are looked for, and an empty
working directory. -/
def fresh (programs : List Text) : Disk :=
  let usr (name : String) : List Text := ["usr".toList, name.toList]
  let work : List Text := ["work".toList]
  let bare : Disk := ⟨.empty, work⟩
  let top :=
    ["boot", "dev", "etc", "home", "media", "mnt", "opt", "proc", "root",
      "run", "srv", "sys", "tmp", "var"].map fun name => [String.toList name]
  let made :=
    (work :: usr "share" :: (usr "local" ++ ["bin".toList]) :: top).foldl
    makeDirectories bare
  let linked := ["bin", "lib", "sbin"].foldl (fun d name =>
    (d.makeDirectories (usr name)).put [name.toList] (.link (usr name))) made
  programs.foldl (fun d name => d.put (usr "bin" ++ [name]) .program) linked

end Disk

/-- Changes a disk, unless that is refused. -/
def Disk.change (act : Disk → Except FileError Disk) :
    StateM Disk (Except FileError Unit) := do
  match act (← get) with
  | .ok d => set d; return .ok ()
  | .error e => return .error e

instance : FileStore (StateM Disk) where
  entry p := return (← get).entry p
  read p := return (← get).read p
  write p contents := Disk.change (·.write p contents)

instance : FileTree (StateM Disk) where
  workingDirectory := return '/' :: Text.joinWith ['/'] (← get).workingPlace
  list p := return (← get).list p
  makeDirectory p := Disk.change (·.makeDirectory p)
  remove p := Disk.change (·.remove p)

end GridScript
