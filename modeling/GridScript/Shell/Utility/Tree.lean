/-
Programs that look at directories, and make, copy, move and remove what
stands in them.
-/
import GridScript.Shell.Utility.Basic

namespace GridScript.Shell

section Utilities

variable {m : Type → Type} [Monad m] [FileTree m]

-- ======================================================== paths

/-- A path without slashes at its end; the root keeps one. -/
def withoutSlashes (p : Path) : Path :=
  let bare := (p.reverse.dropWhile (· == '/')).reverse
  if bare.isEmpty && !p.isEmpty then ['/'] else bare

/-- The last name of a path. -/
def lastName (p : Path) : Text :=
  let p := withoutSlashes p
  if p = ['/'] then p else ((Text.cutAtLast? '/' p).map (·.2)).getD p

/-- The path of a name in a directory. -/
def inDirectory (directory : Path) (name : Text) : Path :=
  if directory.getLast? = some '/' then directory ++ name
  else directory ++ '/' :: name

/-- How deep directories may stand in one another. -/
def depthLimit : Nat := 100

/-- The names of what stands in a directory. -/
def namesIn (p : Path) : Eval m (List Text) := do
  return ((← ofStore (FileTree.list (← located p))).toOption).getD []

/-- Does a directory stand at a path? -/
def isDirectoryAt (p : Path) : Eval m Bool :=
  return (← entryAt p) matches .ok .directory

/-- Do two paths lead to one place? -/
def isSamePlace (p q : Path) : Eval m Bool :=
  return (← placeOf p) == (← placeOf q)

-- ======================================================== ls

/-- A name as a list of names shows it. -/
def listedName (r : OptionsRead) (p : Path) (name : Text) : Eval m Text := do
  if (r.has 'p' || r.has 'F') && (← isDirectoryAt p) then return name ++ ['/']
  else return name

/-- The names in a directory that are shown, in order. -/
def listedNames (r : OptionsRead) (names : List Text) : List Text :=
  let names :=
    if r.lastOf? "aA".toList = some 'a' then
      ([['.'], ['.', '.']] ++ names).mergeSort fun
    a b => (compare a b).isLE else names
  let names := if r.has 'a' || r.has 'A' then names
      else names.filter (·.head? != some '.')
  if r.has 'r' then names.reverse else names

/-- The lists of a directory and, if they are asked for, of those in it, each
under its title. -/
def directoryLists (r : OptionsRead) (titled : Bool) :
    Nat → Path → Eval m (List (List Text))
  | 0, _ => return []
  | depth + 1, p => do
    let names := listedNames r (← namesIn p)
    let shown ← names.mapM fun name => listedName r (inDirectory p name) name
    let here := (if titled then [p ++ [':']] else []) ++ shown
    if !r.has 'R' then return [here]
    let inner ← names.mapM fun name => do
      if name != ['.'] && name != ['.', '.']
          && (← isDirectoryAt (inDirectory p name)) then
        directoryLists r titled depth (inDirectory p name)
      else return []
    return here :: inner.flatten

/-- Lists the names in directories. -/
def ls : Utility m :=
  withOptions (OptionTable.of "1aAbBcCdDfFgGhHiklLmnNopqQrRsStTuUvxXZ"
    [("all", 'a'), ("almost-all", 'A'), ("directory", 'd'), ("reverse", 'r'),
     ("recursive", 'R'),
     ("classify", 'F')]) 2 fun self r => do
  let operands := if r.operands.isEmpty then [['.']] else r.operands
  let mut files : List Path := []
  let mut directories : List Path := []
  let mut fine := true
  for operand in operands do
    match ← entryAt operand with
    | .ok .directory =>
      if r.has 'd' then files := files ++ [operand]
      else directories := directories ++ [operand]
    | .ok _ => files := files ++ [operand]
    | .error e =>
      protest self
        ("cannot access ".toList ++ quotedPath operand ++ ": ".toList
          ++ reasonText e)
      fine := false
  let ordered (ps : List Path) : List Path :=
    let ps := ps.mergeSort fun a b => (compare a b).isLE
    if r.has 'r' then ps.reverse else ps
  let names ← (ordered files).mapM fun p => listedName r p p
  let titled := 1 < operands.length || r.has 'R'
  let lists ← (ordered directories).mapM (directoryLists r titled depthLimit)
  let lists := (if names.isEmpty then [] else [names]) ++ lists.flatten
  emitText 1 (Text.joinWith ['\n'] (lists.map Text.unlines))
  return if fine then 0 else 2

-- ======================================================== modes

/-- Is the mode spelled as modes are? -/
def isMode (mode : Text) : Bool :=
  if (mode.head?.map Char.isDigit).getD false then
    mode.all (fun c => decide ('0' ≤ c) && decide (c ≤ '7')) && mode.length ≤ 5
  else
    (Text.splitOn ',' mode).all fun clause =>
      match clause.dropWhile "ugoa".toList.contains with
      | c :: letters =>
          "+-=".toList.contains c && letters.all "rwxXst".toList.contains
      | [] => false

-- ======================================================== making directories

/-- Makes a directory and, if asked for, those above it; tells why it cannot
be made. -/
def makeDirectories (self : Text) (tells : Bool) : List Path → Eval m Bool
  | [] => return true
  | p :: more => do
    match ← ofStore (FileTree.makeDirectory (← located p)) with
    | .ok _ =>
      if tells then
        emitLines 1 [self ++ ": created directory ".toList ++ quotedPath p]
      makeDirectories self tells more
    | .error e =>
      if e = .alreadyThere && (← isDirectoryAt p) then
        makeDirectories self tells more
      else
        let e :=
          if e = .alreadyThere && !more.isEmpty then FileError.notDirectory
          else e
        protest self
          ("cannot create directory ".toList ++ quotedWord p ++ ": ".toList ++
          reasonText e)
        return false

/-- A path and those above it, the uppermost first. -/
def pathsAbove (p : Path) : List Path :=
  let p := withoutSlashes p
  (List.range (p.length + 1)).filterMap fun n =>
    let isCut :=
      (p.drop n).head? = some '/' && 0 < n && (p.take n).getLast? != some '/'
    if isCut || (n = p.length && 0 < n) then some (p.take n) else none

/-- Makes directories. -/
def mkdir : Utility m :=
  withOptions
    (OptionTable.of "m:pvZ"
      [("mode", 'm'), ("parents", 'p'), ("verbose", 'v')]) 1
  fun self r => do
    if r.operands.isEmpty then return ← misused self 1 "missing operand".toList
    if let some mode := r.operand? 'm' then
      if !isMode mode then
        protest self ("invalid mode ".toList ++ quotedWord mode)
        return 1
    let mut fine := true
    for operand in r.operands do
      if r.has 'p' && !operand.isEmpty then
        if !(← makeDirectories self (r.has 'v') (pathsAbove operand)) then
          fine := false
      else
        match ← if operand.isEmpty then pure (.error .notFound)
          else ofStore (FileTree.makeDirectory (← located operand)) with
        | .ok _ =>
          if r.has 'v' then
            emitLines 1
              [self ++ ": created directory ".toList ++ quotedPath operand]
        | .error e =>
          protest self
            ("cannot create directory ".toList ++ quotedWord operand
              ++ ": ".toList ++
            reasonText e)
          fine := false
    return okStatus fine

-- ======================================================== removing

/-- Removes what stands at a path, with all that is in it; the paths that
were removed, and those that could not be. -/
def removeTree :
    Nat → Path → Eval m (List (Path × Bool) × List (Path × FileError))
  | 0, p => return ([], [(p, .notEmpty)])
  | depth + 1, p => do
    let isDirectory ← isDirectoryAt p
    let mut removed : List (Path × Bool) := []
    if isDirectory then
      for name in ← namesIn p do
        let (more, left) ← removeTree depth (inDirectory p name)
        removed := removed ++ more
        if !left.isEmpty then return (removed, left)
    match ← ofStore (FileTree.remove (← located p)) with
    | .ok _ => return (removed ++ [(p, isDirectory)], [])
    | .error e => return (removed, [(p, e)])

/-- Removes files and directories. -/
def rm : Utility m :=
  withOptions
    (OptionTable.of "dfiIrRv"
      [("force", 'f'), ("recursive", 'r'), ("verbose", 'v'),
    ("dir", 'd'), ("interactive", 'i')]) 1 fun self r => do
  let force := r.lastOf? "fi".toList = some 'f'
  if r.operands.isEmpty then
    return ← if force then pure 0 else misused self 1 "missing operand".toList
  let deep := r.has 'r' || r.has 'R'
  let mut fine := true
  for operand in r.operands do
    let refuse (e : FileError) : Eval m Unit :=
      protest self
        ("cannot remove ".toList ++ quotedPath operand ++ ": ".toList
          ++ reasonText e)
    let name := lastName operand
    if deep && (name = ['.'] || name = ['.', '.']) then
      protest self
        ("refusing to remove '.' or '..' directory: skipping ".toList ++
        quotedPath operand)
      fine := false
    else
      match ← entryAt operand with
      | .error e =>
        if !(force && (e = .notFound || e = .notDirectory)) then
          refuse e
          fine := false
      | .ok entry =>
        if entry = .directory && !deep && !r.has 'd' then
          refuse .isDirectory
          fine := false
        else
          let (removed, left) ← if deep then removeTree depthLimit operand
            else do
              match ← ofStore (FileTree.remove (← located operand)) with
              | .ok _ => pure ([(operand, entry == .directory)], [])
              | .error e => pure ([], [(operand, e)])
          if r.has 'v' then
            emitLines 1 (removed.map fun (p, isDirectory) =>
              (if isDirectory then "removed directory " else "removed ").toList
                ++ quotedPath p)
          for (p, e) in left do
            protest self
              ("cannot remove ".toList ++ quotedPath p ++ ": ".toList
                ++ reasonText e)
            fine := false
  return okStatus fine

/-- Removes empty directories. -/
def rmdir : Utility m :=
  withOptions (OptionTable.of "pv" [("parents", 'p'), ("verbose", 'v'),
    ("ignore-fail-on-non-empty", 'I')]) 1 fun self r => do
  if r.operands.isEmpty then return ← misused self 1 "missing operand".toList
  let mut fine := true
  for operand in r.operands do
    for p in if r.has 'p' then (pathsAbove operand).reverse else [operand] do
      if r.has 'v' then
        emitLines 1 [self ++ ": removing directory, ".toList ++ quotedPath p]
      let result ← match ← entryAt p with
        | .ok .directory => ofStore (FileTree.remove (← located p))
        | .ok _ => pure (.error .notDirectory)
        | .error e => pure (.error e)
      if let .error e := result then
        if !(r.has 'I' && e = .notEmpty) then
          protest self
            ("failed to remove ".toList ++ quotedPath p ++ ": ".toList
              ++ reasonText e)
          fine := false
        break
  return okStatus fine

-- ======================================================== copying and moving

/-- Copies what stands at a path to another, and tells what cannot be
copied. -/
def copyTree (self : Text) (tells : Bool) : Nat → Path → Path → Eval m Bool
  | 0, _, _ => return false
  | depth + 1, source, target => do
    let refuse (what : String) (e : FileError) : Eval m Bool := do
      protest self
        (what.toList ++ ' ' :: quotedPath target ++ ": ".toList
          ++ reasonText e)
      return false
    let tell : Eval m Unit := do
      if tells then
        emitLines 1 [quotedPath source ++ " -> ".toList ++ quotedPath target]
    if ← isDirectoryAt source then
      if !(← isDirectoryAt target) then
        match ← ofStore (FileTree.makeDirectory (← located target)) with
        | .ok _ => tell
        | .error e => return ← refuse "cannot create directory" e
      let mut fine := true
      for name in ← namesIn source do
        if !(← copyTree self tells depth (inDirectory source name)
            (inDirectory target name)) then
          fine := false
      return fine
    else
      match ← openFile source with
      | .error e =>
        protest self
          ("cannot open ".toList ++ quotedPath source
            ++ " for reading: ".toList ++
          reasonText e)
        return false
      | .ok stream =>
        if stream.isEndless then throw .unfinished
        let result ← if target.isEmpty then pure (.error .notFound)
          else writeFile target false stream
        match result with
        | .ok _ =>
          tell
          return true
        | .error e =>
          let e :=
            if e = .isDirectory && !(← isDirectoryAt target) then
              FileError.notDirectory
            else e
          refuse "cannot create regular file" e

/-- The sources and the target that operands name, and whether the target is
a directory for the sources; none if that was told to be wrong. -/
def sourcesAndTarget? (self : Text) (r : OptionsRead) :
    Eval m (Option (List Path × Path × Bool)) := do
  match r.operand? 't', r.operands.reverse with
  | none, [] =>
    let _ ← misused self 1 "missing file operand".toList
    return none
  | none, [one] =>
    let _ ← misused self 1
        ("missing destination file operand after ".toList ++ quotedPath one)
    return none
  | given, last :: before =>
    let target := given.getD last
    let sources := if given.isSome then r.operands else before.reverse
    let inside ← isDirectoryAt target
    if inside && !r.has 'T' then return some (sources, target, true)
    if given.isSome || 1 < sources.length then
      let e : FileError :=
        if (← entryAt target).isOk then .notDirectory else .notFound
      let what :=
        if given.isSome then "target directory ".toList else "target ".toList
      protest self (what ++ quotedPath target ++ ": ".toList ++ reasonText e)
      return none
    return some (sources, target, false)
  | some _, [] =>
    let _ ← misused self 1 "missing file operand".toList
    return none

/-- The words of the options of `cp` and `mv`. -/
def transferWords : List (String × Char) :=
  [("force", 'f'), ("verbose", 'v'), ("recursive", 'r'),
   ("target-directory", 't'), ("no-target-directory", 'T'),
   ("no-clobber", 'n'), ("archive", 'a')]

/-- Copies files and directories. -/
def cp : Utility m :=
  withOptions (OptionTable.of "abdfiHlLnprRst:TuvxPZ" transferWords) 1
    fun self r => do
  if r.has 'n' then
    protest self
      ("warning: behavior of -n is non-portable and may change in future; " ++
      "use --update=none instead").toList
  match ← sourcesAndTarget? self r with
  | none => return 1
  | some (sources, target, inside) =>
    let deep := r.has 'r' || r.has 'R' || r.has 'a'
    let mut fine := true
    for source in sources do
      let place :=
        if inside then inDirectory target (lastName source) else target
      match ← entryAt source with
      | .error e =>
        protest self
          ("cannot stat ".toList ++ quotedPath source ++ ": ".toList
            ++ reasonText e)
        fine := false
      | .ok entry =>
        let there ← entryAt place
        let isBelowFile : Bool := match there with
          | .error e => e == .notDirectory
          | .ok _ => false
        if isBelowFile then
          protest self
            ("cannot stat ".toList ++ quotedPath place
              ++ ": Not a directory".toList)
          fine := false
        else if entry = .directory && !deep then
          protest self
            ("-r not specified; omitting directory ".toList
              ++ quotedPath source)
          fine := false
        else if there.isOk && (← isSamePlace source place) then
          protest self
            (quotedPath source ++ " and ".toList ++ quotedPath place ++
            " are the same file".toList)
          fine := false
        else if entry = .directory
            && (withoutSlashes source ++ ['/']).isPrefixOf place then
          protest self
            ("cannot copy a directory, ".toList ++ quotedPath source ++
            ", into itself, ".toList ++ quotedPath place)
          fine := false
        else if entry = .directory && there.isOk
            && there.toOption != some .directory then
          protest self
            ("cannot overwrite non-directory ".toList ++ quotedPath place ++
            " with directory ".toList ++ quotedPath source)
          fine := false
        else if entry != .directory && there.toOption == some .directory then
          protest self
            ("cannot overwrite directory ".toList ++ quotedPath place ++
            " with non-directory".toList)
          fine := false
        else if !(r.has 'n' && there.isOk) then
          if !(← copyTree self (r.has 'v') depthLimit source place) then
            fine := false
    return okStatus fine

/-- Moves files and directories. -/
def mv : Utility m :=
  withOptions (OptionTable.of "bfint:TuvZ" transferWords) 1 fun self r => do
  match ← sourcesAndTarget? self r with
  | none => return 1
  | some (sources, target, inside) =>
    let mut fine := true
    for source in sources do
      let place :=
        if inside then inDirectory target (lastName source) else target
      match ← entryAt source with
      | .error e =>
        protest self
          ("cannot stat ".toList ++ quotedPath source ++ ": ".toList
            ++ reasonText e)
        fine := false
      | .ok entry =>
        let there ← entryAt place
        if there.isOk && (← isSamePlace source place) then
          protest self
            (quotedPath source ++ " and ".toList ++ quotedPath place ++
            " are the same file".toList)
          fine := false
        else if entry = .directory
            && (withoutSlashes source ++ ['/']).isPrefixOf place then
          protest self ("cannot move ".toList ++ quotedPath source ++
            " to a subdirectory of itself, ".toList ++ quotedPath place)
          fine := false
        else if entry = .directory && there.isOk
            && there.toOption != some .directory then
          protest self
            ("cannot overwrite non-directory ".toList ++ quotedPath place ++
            " with directory ".toList ++ quotedPath source)
          fine := false
        else if entry != .directory && there.toOption == some .directory then
          protest self
            ("cannot overwrite directory ".toList ++ quotedPath place ++
            " with non-directory".toList)
          fine := false
        else if !(r.has 'n' && there.isOk) then
          let above := withoutSlashes ((Path.parent? place).getD [])
          if !above.isEmpty && !(← entryAt above).isOk || place.isEmpty then
            protest self
              ("cannot move ".toList ++ quotedPath source ++ " to ".toList ++
              quotedPath place ++ ": No such file or directory".toList)
            fine := false
          else if ← copyTree self false depthLimit source place then
            let _ ← removeTree depthLimit source
            if r.has 'v' then
              emitLines 1
                ["renamed ".toList ++ quotedPath source ++ " -> ".toList ++
                quotedPath place]
          else fine := false
    return okStatus fine

-- ======================================================== touch and chmod

/-- Makes files that are not there. -/
def touch : Utility m :=
  withOptions (OptionTable.of "acd:fhmr:t:" [("no-create", 'c'), ("date", 'd'),
    ("reference", 'r')]) 1 fun self r => do
  if r.operands.isEmpty then
    return ← misused self 1 "missing file operand".toList
  let mut fine := true
  for operand in r.operands do
    if !(← entryAt operand).isOk && !r.has 'c' then
      let result ← if operand.isEmpty then pure (.error .notFound)
        else writeFile operand false .empty
      if let .error e := result then
        let isSlash := operand.getLast? = some '/'
        let what := if isSlash then "setting times of " else "cannot touch "
        protest self (what.toList ++ quotedPath operand ++ ": ".toList ++
          reasonText (if isSlash then .notFound else e))
        fine := false
  return okStatus fine

/-- Does a mode let a file be started, if it says anything about that? -/
def startingMode? (mode : Text) : Option Bool :=
  if mode.all Char.isDigit then
    some ((mode.reverse.drop 2).any fun c => Number.digitValue c % 2 = 1)
  else
    (Text.splitOn ',' mode).foldl (fun found clause =>
      let what := clause.dropWhile "ugoa".toList.contains
      match what with
      | '+' :: letters => if letters.contains 'x' then some true else found
      | '-' :: letters => if letters.contains 'x' then some false else found
      | '=' :: letters => some (letters.contains 'x')
      | _ => found) none

/-- Changes what may be done with files. Only whether they can be started
is kept. -/
def chmod : Utility m := fun self arguments =>
  let isMinus (t : Text) : Bool := t.head? = some '-' && 1 < t.length &&
    (t.drop 1).all "rwxXst".toList.contains
  let arguments :=
    if (arguments.head?.map isMinus).getD false then ['-', '-'] :: arguments
    else arguments
  withOptions
    (OptionTable.of "Rcfv"
      [("recursive", 'R'), ("verbose", 'v'), ("changes", 'c'),
    ("quiet", 'f')]) 1 (fun self r => do
    match r.operands with
    | [] => misused self 1 "missing operand".toList
    | [mode] =>
        misused self 1 ("missing operand after ".toList ++ quotedWord mode)
    | mode :: operands =>
      if !isMode mode then
        return ← misused self 1 ("invalid mode: ".toList ++ quotedWord mode)
      let mut fine := true
      for operand in operands do
        match ← entryAt operand with
        | .error e =>
          protest self
            ("cannot access ".toList ++ quotedPath operand ++ ": ".toList ++
            reasonText e)
          fine := false
        | .ok _ =>
          let place ← placeOf operand
          match startingMode? mode with
          | some true =>
              modify fun s => { s with runnable := s.runnable.insert place }
          | some false =>
              modify fun s => { s with
                  runnable := s.runnable.filter (· != place) }
          | none => pure ()
      return okStatus fine) self arguments

end Utilities

end GridScript.Shell
