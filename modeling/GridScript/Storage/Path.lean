/-
Paths as texts. A path is cut at its slashes; empty parts and single dots
say nothing, except that a slash in front makes the path absolute and a
lone dot in front is kept. What a path is made of decides its name, its
extension and its parent, but all of these are cut from the text as it was
written, so that a path is shown to the user the way the user gave it.
-/
import GridScript.Text.Basic

namespace GridScript

/-- A path, as it was written. -/
abbrev Path := Text

namespace Path

/-- Does the part say nothing? -/
def isIdle (part : Text) : Bool := part.isEmpty || part == ['.']

/-- The parts of a path without the idle ones at its end. The first part is
kept: it is empty in an absolute path. -/
def parts (p : Path) : Text × List Text :=
  match Text.splitOn '/' p with
  | [] => ([], [])
  | first :: rest => (first, (rest.reverse.dropWhile isIdle).reverse)

/-- Does the path begin at the root? -/
def isAbsolute (p : Path) : Bool := p.head? == some '/'

/-- How many parts of the path say something, the root among them. -/
def depth (p : Path) : Nat :=
  match Text.splitOn '/' p with
  | [] => 0
  | first :: rest =>
    let start := if first.isEmpty && rest.isEmpty then 0 else 1
    start + (rest.filter fun part => !isIdle part).length

/-- A path that goes on from another. An absolute one stands by itself. -/
def join (p q : Path) : Path :=
  if isAbsolute q || p.isEmpty then q
  else if p.getLast? = some '/' then p ++ q
  else p ++ '/' :: q

/-- The names on the way after one more part. A step up takes back the name
before it, and is kept if there is none. -/
def walk (names : List Text) (part : Text) : List Text :=
  if isIdle part then names
  else if part != ['.', '.'] then names ++ [part]
  else
    match names.getLast? with
    | none => [part]
    | some last => if last == part then names ++ [part] else names.dropLast

/-- The names on the way from the root, for a path that begins there or
climbs up to it. -/
def wayFromRoot? (p : Path) : Option (List Text) :=
  let isUp (part : Text) : Bool := part == ['.', '.']
  let names := (Text.splitOn '/' p).foldl walk []
  if isAbsolute p || (names.head?.map isUp).getD false then
    some (names.dropWhile isUp) else none

/-- The text of parts; the empty part alone in front is the root. -/
def ofParts : List Text → Path
  | [[]] => ['/']
  | ps => Text.joinWith ['/'] ps

/-- The path without its last part; none if there is no part to drop. -/
def parent? (p : Path) : Option Path :=
  let (first, rest) := parts p
  if rest.isEmpty then if first.isEmpty then none else some []
  else
    some (ofParts (first :: (rest.dropLast.reverse.dropWhile isIdle).reverse))

/-- The parts in front of the path's name, and the name; none if the path
ends in no name. -/
def cutName? (p : Path) : Option (List Text × Text) :=
  let (first, rest) := parts p
  let name := (first :: rest).getLast?.getD []
  if isIdle name || name == ['.', '.'] then none
  else some ((first :: rest).dropLast, name)

/-- A name cut at its last point into stem and extension. A point in front
begins no extension. -/
def cutExtension (name : Text) : Text × Option Text :=
  match Text.cutAtLast? '.' name with
  | some (stem, extension) =>
      if stem.isEmpty then (name, none) else (stem, some extension)
  | none => (name, none)

/-- The extension of the path's name. -/
def extension? (p : Path) : Option Text :=
  (cutName? p).bind fun (_, name) => (cutExtension name).2

/-- The path with another extension. A path without a name is left as it
is. -/
def withExtension (extension : Text) (p : Path) : Path :=
  match cutName? p with
  | none => p
  | some (before, name) =>
    Text.joinWith ['/'] (before ++ [(cutExtension name).1 ++ '.' :: extension])

/-- The history file that belongs to a script. -/
def history (p : Path) : Path := withExtension "history.json".toList p

end Path

end GridScript
