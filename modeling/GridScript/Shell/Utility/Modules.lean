/-
The program that scripts are written for, as far as it is known here: how it
looks for the module it is to run, and what sources do that only print and
end. Any other source fails.
-/
import GridScript.Script.Quoted
import GridScript.Shell.Lookup
import GridScript.Shell.Utility.Tree
import GridScript.Text.Blank

namespace GridScript.Shell

-- ======================================================== sources

/-- A statement of a source. -/
inductive SourceStatement where
  | nothing
  | print (t : Text)
  | exit (code : Nat)
  deriving DecidableEq

/-- The statement of a line, if it is one that is known. -/
def SourceStatement.read? (line : Text) : Option SourceStatement :=
  let t := Text.trimEnd line
  let between (front : String) : Option Text := do
    let inside ← Text.afterStart? front.toList t
    if inside.getLast? = some ')' then some (List.dropLast inside) else none
  let isIdle := t.isEmpty || (Text.trimStart t).head? = some '#' ||
    ["pass", "import sys", "import os", "import json"].contains
      (String.ofList t)
  if isIdle then some .nothing
  else
    match between "print(", between "sys.exit(" with
    | some [], _ => some (.print [])
    | some inside, _ =>
      match Script.readQuoted? inside with
      | some (t, []) => some (.print t)
      | _ => none
    | none, some [] => some (.exit 0)
    | none, some inside => (Number.wordOfDigits? inside).map .exit
    | none, none => none

section Utilities

variable {m : Type → Type} [Monad m] [FileTree m]

/-- Does what statements say, and gives the status they end with. -/
def runStatements : List SourceStatement → Eval m Nat
  | [] => return 0
  | .nothing :: rest => runStatements rest
  | .print t :: rest => do
    emitLines 1 [t]
    runStatements rest
  | .exit code :: _ => return code % 256

/-- Runs a source. -/
def runSourceText (source : Text) : Eval m Nat := do
  match (Text.splitOn '\n' source).mapM SourceStatement.read? with
  | some statements => runStatements statements
  | none => return 1

/-- Runs the source in a file. -/
def runSourceFile (p : Path) : Eval m Nat := do
  match ← openFile p with
  | .ok stream => runSourceText (Stream.decode stream.bytes)
  | .error _ => return 1

-- ======================================================== modules

/-- What a module is: a source, or a directory of other modules, which may
have a source of its own. -/
inductive ModulePlace where
  | source (p : Path)
  | package (directory : Path) (source : Option Path)

/-- The module of a name in the first of some directories that has it.
Directories without a source of their own come last. -/
def modulePlace? (directories : List Path) (name : Text) :
    Eval m (Option ModulePlace) := do
  if name.isEmpty || name.contains '/' then return none
  for directory in directories do
    let p := placeIn directory name
    let own := inDirectory p "__init__.py".toList
    if ← isFileAt own then return some (.package p (some own))
    let source := p ++ ".py".toList
    if ← isFileAt source then return some (.source source)
  return (← placeWhere? isDirectoryAt directories name).map fun p =>
    .package p none

/-- The complaint about a module whose package is none. -/
def misplaced (whole reason : Text) : Text :=
  let hint := match Text.afterStart? "yp.".toList whole.reverse with
    | some rest =>
      ". Try using ".toList ++ Script.quote rest.reverse
        ++ " instead of ".toList ++
        Script.quote whole ++ " as the module name.".toList
    | none => []
  "Error while finding module specification for ".toList
    ++ Script.quote whole ++
    " (ModuleNotFoundError: ".toList ++ reason ++ [')'] ++ hint

/-- The module whose name has some parts, after those that led to the
directories. The sources of the packages on the way are run. -/
def findModule (whole : Text) :
    Text → List Path → List Text → Eval m (Except Text ModulePlace)
  | _, _, [] => return .error ("No module named ".toList ++ whole)
  | _, directories, [last] => do
    match ← modulePlace? directories last with
    | some found => return .ok found
    | none => return .error ("No module named ".toList ++ whole)
  | before, directories, part :: next :: rest => do
    let name := before ++ part
    match ← modulePlace? directories part with
    | none =>
        return .error
          (misplaced whole ("No module named ".toList ++ Script.quote name))
    | some (.source _) =>
      let reason := if rest.isEmpty then
          "__path__ attribute not found on ".toList ++ Script.quote name ++
            " while trying to find ".toList ++ Script.quote whole
        else
          "No module named ".toList ++ Script.quote (name ++ '.' :: next)
            ++ "; ".toList ++
            Script.quote name ++ " is not a package".toList
      return .error (misplaced whole reason)
    | some (.package directory own) =>
      for p in own.toList do
        let _ ← runSourceFile p
      findModule whole (name ++ ['.']) [directory] (next :: rest)

/-- Runs the module of a name. -/
def runModule (self name : Text) : Eval m Nat := do
  let refuse (what : Text) : Eval m Nat := do
    protest self what
    return 1
  if name.head? = some '.' then
    return ← refuse "Relative module names not supported".toList
  let listed :=
    directoriesIn (((← get).bindings.lookup "PYTHONPATH".toList).getD [])
  match ← findModule name [] ([] :: listed) (Text.splitOn '.' name) with
  | .error what => refuse what
  | .ok (.source p) => runSourceFile p
  | .ok (.package directory own) =>
    for p in own.toList do
      let _ ← runSourceFile p
    match ← modulePlace? [directory] "__main__".toList with
    | some (.source p) => runSourceFile p
    | _ =>
      refuse
        ("No module named ".toList ++ name ++ ".__main__; ".toList
          ++ Script.quote name ++
        " is a package and cannot be directly executed".toList)

-- ======================================================== the program

/-- Runs the source in a file that is named. -/
def runNamedFile (self : Text) (p : Path) : Eval m Nat := do
  let place ← located p
  match ← openFile p with
  | .ok stream => runSourceText (Stream.decode stream.bytes)
  | .error .isDirectory =>
    protest self
      ("can't find '__main__' module in ".toList ++ Script.quote place)
    return 1
  | .error e =>
    let number := if e = .notDirectory then "20" else "2"
    protest self
      ("can't open file ".toList ++ Script.quote place ++ ": [Errno ".toList ++
      number.toList ++ "] ".toList ++ reasonText e)
    return 2

/-- Runs a module, a source, or the source in a file, as arguments say. -/
def python (self : Text) : List Text → Eval m Nat
  | [] => runGiven
  | argument :: rest => do
    match String.ofList argument, rest with
    | "-", _ => runGiven
    | "-V", _ => tellVersion
    | "--version", _ => tellVersion
    | "-c", [] => misuse "Argument expected for the -c option"
    | "-m", [] => misuse "Argument expected for the -m option"
    | "-c", source :: _ => runSourceText source
    | "-m", name :: _ => runModule self name
    | _, _ =>
      match argument with
      | '-' :: letters =>
        if letters.all "bBdEiIOPqsSuvx".toList.contains then python self rest
        else misuse ("Unknown option: " ++ String.ofList (argument.take 2))
      | p => runNamedFile self p
where
  /-- Runs the source that is read. -/
  runGiven : Eval m Nat := do runSourceText (Stream.decode (← drain 0).bytes)
  /-- Tells the version. -/
  tellVersion : Eval m Nat := do
    emitLines 1 ["Python 3.12.3".toList]
    return 0
  /-- Complains about arguments. -/
  misuse (what : String) : Eval m Nat := do
    emitLines 2 [what.toList, "usage: ".toList ++ self ++
      " [option] ... [-c cmd | -m mod | file | -] [arg] ...".toList,
      "Try \x60python -h' for more information.".toList]
    return 2

end Utilities

end GridScript.Shell
