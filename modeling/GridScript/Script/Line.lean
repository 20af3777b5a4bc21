/-
The lines of a script that the library takes part in: headers that open a
region of a table, calls that create a table, declarations of a table's
local name, and lines that merely mention a table. All of them are told
from the tokens of one line, and a line that is none of them is never an
error.
-/
import GridScript.Script.Token
import GridScript.Text.Blank

namespace GridScript.Script

-- ======================================================== headers

/-- The table that a header names. -/
inductive HeaderTable where
  /-- A local name. -/
  | name (n : Text)
  /-- An identifier, by itself or looked up. -/
  | id (id : Text)
  deriving DecidableEq

/-- A line that opens a region of a table. -/
structure Header where
  table : HeaderTable
  region : Region
  deriving DecidableEq

/-- The table of a header, and what follows it. -/
def eatHeaderTable? (ts : List Token) : Option (HeaderTable × List Token) :=
  match eatQuoted? ts with
  | some (id, ts) => some (.id id, ts)
  | none =>
    match eatLookup? ts with
    | some (id, ts) => some (.id id, ts)
    | none => (eatWord? ts).map fun (n, ts) => (.name n, ts)

/-- The label band after a comma, and what follows it. -/
def eatBand? (ts : List Token) : Option (Region × List Token) := do
  let ts ← eatMark? ',' ts
  let (name, ts) ← eatQuoted? (skipSpaces ts)
  let region ← Region.ofName? name
  if region.isLabel then return (region, skipSpaces ts) else none

/-- Reads a header: it stands at the beginning of its line and nothing but
spaces follows its colon. -/
def header? (ts : List Token) : Option Header := do
  let ts ← eatKeyword? "with".toList ts
  let ts ← eatSpaces? ts
  let (opener, ts) ← eatWord? ts
  let isLabel ← if opener = bodyContext then some false
    else if opener = labelContext then some true else none
  let ts ← eatOpening? ts
  let (table, ts) ← eatHeaderTable? ts
  let ts := skipSpaces ts
  let (region, ts) ← if isLabel then eatBand? ts else some (.body, ts)
  let ts ← eatMark? ')' ts
  let ts ← eatMark? ':' (skipSpaces ts)
  if onlySpaces ts then return ⟨table, region⟩ else none

-- ======================================================== creations

/-- The string given to a keyword argument; string literals on the way are
passed over whole, and one that is never closed ends the search. -/
def keywordString? (key : Text) : List Token → Option Text
  | [] => none
  | .mark c :: ts => if isQuote c then none else keywordString? key ts
  | .quoted .. :: ts => keywordString? key ts
  | .word w :: ts =>
    if w = key then
      match eatAssign? (skipSpaces ts) with
      | some ts' => (eatQuoted? (skipSpaces ts')).map (·.1)
      | none => keywordString? key ts
    else keywordString? key ts

/-- A call that creates a table: the name it is bound to, the table, and
the call without the binding. -/
structure Creation where
  binding : Option Text
  table : Text
  call : Text
  deriving DecidableEq

/-- The binding at the beginning of a line, if there is one, and the rest. -/
def cutBinding (ts : List Token) : Option Text × List Token :=
  match eatBinding? ts with
  | some (name, ts) => (some name, ts)
  | none => (none, ts)

/-- Reads a call that creates a table. It has to end with the line. -/
def creation? (ts : List Token) : Option Creation := do
  let (binding, ts) := cutBinding ts
  let call := Text.trimEnd (sourceOf ts)
  let ts ← eatKeyword? projectName ts
  let ts ← eatMark? '.' ts
  let (method, ts) ← eatWord? ts
  if !creationMethods.contains method then none
  else
    let ts ← eatMark? '(' (skipSpaces ts)
    if call.getLast? ≠ some ')' then none
    else
      let table ← keywordString? "table_id".toList ts
      return ⟨binding, table, call⟩

-- ======================================================== declarations

/-- Reads the declaration of a local name: the name and the table. A
comment may follow. -/
def declaration? (ts : List Token) : Option (Text × Text) := do
  let (name, ts) ← eatBinding? ts
  let (table, ts) ← eatLookup? ts
  if onlyComment ts then return (name, table) else none

/-- Does the line declare a local name? -/
def isDeclaration (line : Text) : Bool := (declaration? (tokens line)).isSome

-- ======================================================== mentions

/-- Local names and the tables they stand for, the newest first. -/
abbrev Aliases := List (Text × Text)

/-- The names without one of them. -/
def Aliases.without (a : Aliases) (name : Text) : Aliases :=
  a.filter fun e => e.1 != name

/-- The names with one of them bound to a table, whatever it stood for. -/
def Aliases.rebind (a : Aliases) (name table : Text) : Aliases :=
  (name, table) :: a.without name

/-- The table of a known local name that a line begins with, followed by a
point. -/
def receiver? (aliases : Aliases) : List Token → Option Text
  | .word name :: .mark '.' :: _ => aliases.lookup name
  | _ => none

/-- The first table that is looked up. -/
def firstLookup? : List Token → Option Text
  | [] => none
  | t :: ts =>
    match t with
    | .mark c => if isQuote c then none else firstLookup? ts
    | .quoted .. => firstLookup? ts
    | .word _ =>
      match eatLookup? (t :: ts) with
      | some (id, _) => some id
      | none => firstLookup? ts

/-- The table that a line mentions first: through its local name or by a
look-up. -/
def mention? (aliases : Aliases) (ts : List Token) : Option Text :=
  match receiver? aliases ts with
  | some id => some id
  | none => firstLookup? ts

-- ======================================================== other lines

/-- Does the line create the project object? -/
def isProjectInit (line : Text) : Bool :=
  match eatBinding? (tokens line) with
  | some (name, ts) =>
    name == projectName &&
      (((eatKeyword? projectConstructor ts).map skipSpaces).bind
        (eatMark? '(')).isSome
  | none => false

/-- Is the line an import? -/
def isImport (line : Text) : Bool :=
  let ts := tokens line
  match eatKeyword? "import".toList ts with
  | some ts => (eatSpaces? ts).isSome
  | none =>
    ((eatKeyword? "from".toList ts).bind eatSpaces?).isSome
      && Text.hasPart " import ".toList line

/-- How many spaces and tabs a line begins with. -/
def indentWidth (line : Text) : Nat :=
  (line.takeWhile fun c => c == ' ' || c == '\t').length

end GridScript.Script
