/-
From words to arguments. What the parts of a word stand for is put together
as pieces; a piece says whether it was quoted, stands in the source as it
is, or comes from a value and may be split at blanks. What was not quoted in
an argument can act as a pattern for the names of files.
-/
import GridScript.Shell.Machine
import GridScript.Shell.Pattern

namespace GridScript.Shell

-- ======================================================== pieces

/-- A piece of an expanded word. -/
inductive Piece where
  /-- Text that was quoted. -/
  | solid (t : Text)
  /-- Text of the source. -/
  | plain (t : Text)
  /-- Text of a value, which may be split. -/
  | loose (t : Text)
  /-- The end of one argument and the beginning of another. -/
  | boundary
  deriving DecidableEq

/-- The text of a piece. -/
def Piece.text : Piece → Text
  | solid t => t
  | plain t => t
  | loose t => t
  | boundary => [' ']

/-- The piece as it is in place of a value: text of the source may be split
as well. -/
def Piece.asValue : Piece → Piece
  | plain t => loose t
  | piece => piece

/-- The text that pieces make where nothing is split; arguments have a joint
between them. -/
def textOf (joint : Text) (pieces : List Piece) : Text :=
  pieces.flatMap fun piece =>
    match piece with
    | .boundary => joint
    | piece => piece.text

/-- A character of an expanded word, and whether it was quoted. -/
structure Mark where
  char : Char
  quoted : Bool
  deriving DecidableEq

/-- The characters of a piece. -/
def Piece.marks : Piece → List Mark
  | solid t => t.map (⟨·, true⟩)
  | plain t => t.map (⟨·, false⟩)
  | loose t => t.map (⟨·, false⟩)
  | boundary => [⟨' ', true⟩]

/-- The pattern that marks make: what was quoted stands for itself. -/
def patternOfMarks (marks : List Mark) : Pattern :=
  Pattern.read (marks.flatMap fun mark =>
    (bytewise [mark.char]).flatMap fun c => if mark.quoted then ['\\', c]
      else [c])

/-- The pattern that pieces make. -/
def patternOf (pieces : List Piece) : Pattern :=
  patternOfMarks (pieces.flatMap Piece.marks)

-- ======================================================== splitting

/-- Arguments that are being put together: those that are complete, the last
one first, the one at hand, if it has begun, and whether a blank has just
ended one. -/
structure Gathering where
  complete : List (List Mark)
  current : Option (List Mark)
  afterBlank : Bool

/-- The blanks that separate without leaving anything between them. -/
def isSeparatingBlank (c : Char) : Bool := c == ' ' || c == '\t' || c == '\n'

namespace Gathering

/-- Nothing yet. -/
def nothing : Gathering := ⟨[], none, false⟩

/-- Completes the argument at hand. -/
def close (g : Gathering) : Gathering :=
  match g.current with
  | some marks => ⟨marks :: g.complete, none, false⟩
  | none => g

/-- Adds marks to the argument at hand, which then has begun; they are kept
in reverse. -/
def extend (g : Gathering) (marks : List Mark) : Gathering :=
  ⟨g.complete, some (marks.reverse ++ g.current.getD []), false⟩

/-- Adds a character of a value. A blank separator completes an argument;
another separator completes one even if it is empty, unless blanks have just
done so. -/
def addLoose (separators : Text) (g : Gathering) (c : Char) : Gathering :=
  if !separators.contains c then g.extend [⟨c, false⟩]
  else if isSeparatingBlank c then
    if g.current.isSome then { g.close with afterBlank := true } else g
  else if g.current.isNone && g.afterBlank then { g with afterBlank := false }
  else (g.extend []).close

/-- Adds a piece. -/
def add (separators : Text) (g : Gathering) : Piece → Gathering
  | .solid t => g.extend (Piece.solid t).marks
  | .plain t => if t.isEmpty then g else g.extend (Piece.plain t).marks
  | .loose t => t.foldl (addLoose separators) g
  | .boundary => g.close

end Gathering

/-- The arguments that pieces make. -/
def argumentsOf (separators : Text) (pieces : List Piece) : List (List Mark) :=
  let gathered := (pieces.foldl (Gathering.add separators) .nothing).close
  (gathered.complete.map List.reverse).reverse

/-- The text of an argument. -/
def markText (marks : List Mark) : Text := marks.map (·.char)

-- ======================================================== parameters

/-- What separates arguments in a value. -/
def separators (s : Machine) : Text :=
  (s.bindings.lookup "IFS".toList).getD " \t\n".toList

/-- What joins arguments to one text. -/
def joint (s : Machine) : Text := (separators s).take 1

/-- What keeps arguments apart in one text: a character that no argument
has. -/
def apart : Char := '\x00'

/-- The arguments in one text. -/
def joinedArguments (s : Machine) : Text := Text.joinWith (joint s) s.arguments

/-- The value of a parameter, if it has one. -/
def parameter? (s : Machine) (name : Text) : Option Text :=
  match name with
  | ['#'] => some (Number.decimal s.arguments.length)
  | ['?'] => some (Number.decimal s.status)
  | ['$'] => some (Number.decimal s.process)
  | ['!'] => s.lastJob.map Number.decimal
  | ['-'] => some s.options
  | ['@'] => some (Text.joinWith [' '] s.arguments)
  | ['*'] => some (joinedArguments s)
  | ['0'] => some s.name
  | name =>
    if Number.isDigits name then
      let n := Number.ofDigits 0 name
      if n = 0 then some s.name else s.arguments[n - 1]?
    else s.bindings.lookup name

/-- The text without line ends at its end. -/
def withoutLineEnds (t : Text) : Text :=
  (t.reverse.dropWhile (· == '\n')).reverse

section Files

variable {m : Type → Type} [Monad m] [FileTree m]

/-- The text that pieces make where nothing is split. -/
def plainText (pieces : List Piece) : Eval m Text :=
  return textOf (joint (← get)) pieces

-- ======================================================== names of files

/-- The names in a directory that a pattern matches. A name that begins with
a point has to be asked for. -/
def namesMatching (directory : Path) (p : Pattern) : Eval m (List Text) := do
  let asksForPoint := p.head? == some (.char '.')
  let inside ← ofStore
      (FileTree.list
        (← located (if directory.isEmpty then ['.'] else directory)))
  let names := match inside with
    | .ok names =>
        ([['.'], ['.', '.']] ++ names).mergeSort fun a b => (compare a b).isLE
    | .error _ => []
  return names.filter fun name => (name.head? != some '.' || asksForPoint)
    && p.fits name

/-- The paths that go on from a path by names that match patterns, one for
each directory on the way. -/
def pathsMatching : Path → List Pattern → Eval m (List Path)
  | base, [] => return [base]
  | base, p :: ps => do
    let isLast := ps.isEmpty
    let onward (name : Text) : Path :=
      base ++ name ++ (if isLast then [] else ['/'])
    match p.literal? with
    | some name =>
      if name.isEmpty then
        if isLast then return [base] else pathsMatching (onward name) ps
      else
        let path := onward name
        if (← entryAt path).isOk then pathsMatching path ps else return []
    | none =>
      let found ← (← namesMatching base p).mapM fun name => do
        if isLast || (← entryAt (onward name)) matches .ok .directory then
          pathsMatching (onward name) ps
        else return []
      return found.flatten

/-- The arguments that an argument stands for, if it is a pattern for the
names of files, and itself if none are found. -/
def withFiles (marks : List Mark) : Eval m (List Text) := do
  let t := markText marks
  let hasPattern := marks.any fun c =>
    !c.quoted && "*?[".toList.contains c.char
  if (← get).hasOption 'f' || !hasPattern then
    return [t]
  let parts := (marks.foldr (fun mark (parts : List (List Mark)) =>
    match parts with
    | part :: parts =>
        if mark.char = '/' then [] :: part :: parts
        else (mark :: part) :: parts
    | [] => [[mark]]) [[]])
  let found ← pathsMatching [] (parts.map patternOfMarks)
  return if found.isEmpty then [t] else found

end Files

end GridScript.Shell
