/-
A script as blocks. The lines under a header are its body, down to the
first line at the margin; everything else is a line by itself. Local names
are resolved on the way: a header that gives a name belongs to the table
that the name stands for at that point, and a name that stands for nothing
is taken for an identifier.

A body is a list of statements. Its first line sets the level; deeper
lines belong to the statement above them, and all others begin one. Blank
lines in a body are not part of it.
-/
import GridScript.Script.Assignment
import GridScript.Script.Line

namespace GridScript.Script

-- ======================================================== statements

/-- A statement of a body: its first line, and the lines nested under it
with their indentation beyond the level of the body. -/
structure Statement where
  head : Text
  nested : List Text
  deriving DecidableEq

/-- The lines of a statement. -/
def Statement.lines (s : Statement) : List Text := s.head :: s.nested

/-- Cuts body lines into those nested under a statement before them and
the statements that follow. -/
def cutNested (level : Nat) : List Text → List Text × List Statement
  | [] => ([], [])
  | l :: ls =>
    let (nested, statements) := cutNested level ls
    if level < indentWidth l then
      (Text.trimEnd (l.drop level) :: nested, statements)
    else ([], ⟨Text.trim l, nested⟩ :: statements)

/-- The statements of body lines. -/
def statementsOf : List Text → List Statement
  | [] => []
  | l :: ls =>
    let level := indentWidth l
    let (nested, statements) := cutNested level ls
    ⟨Text.trimEnd (l.drop level), nested⟩ :: statements

-- ======================================================== bodies

/-- Is the next line that is not blank an indented one? -/
def resumes (ls : List Text) : Bool :=
  match ls.find? fun l => !Text.allBlank l with
  | some l => decide (0 < indentWidth l)
  | none => false

/-- The lines of the body that begins here, without the blank ones, and
the lines after it. -/
def cutBody : List Text → List Text × List Text
  | [] => ([], [])
  | l :: ls =>
    if Text.allBlank l then if resumes ls then cutBody ls else ([], l :: ls)
    else if indentWidth l = 0 then ([], l :: ls)
    else
      let (body, rest) := cutBody ls
      (l :: body, rest)

/-- The statements of the body that begins here, and the lines after it. -/
def takeBody (ls : List Text) : List Statement × List Text :=
  let (body, rest) := cutBody ls
  (statementsOf body, rest)

theorem length_cutBody_le (ls : List Text) :
    (cutBody ls).2.length ≤ ls.length := by
  fun_induction cutBody ls with
  | case1 => simp
  | case2 l ls _ _ ih => simp; omega
  | case3 => simp
  | case4 => simp
  | case5 l ls _ _ body rest heq ih => simp [heq] at ih; simp; omega

theorem length_takeBody_le (ls : List Text) :
    (takeBody ls).2.length ≤ ls.length :=
  length_cutBody_le ls

-- ======================================================== chunks

/-- A header with its body, or a line by itself. -/
inductive Chunk where
  | context (header : Header) (body : List Statement)
  | line (l : Text)

/-- The chunks of lines. -/
def chunks : List Text → List Chunk
  | [] => []
  | l :: ls =>
    match header? (tokens l) with
    | some h => .context h (takeBody ls).1 :: chunks (takeBody ls).2
    | none => .line l :: chunks ls
termination_by ls => ls.length
decreasing_by
  · have := length_takeBody_le ls; simp; omega
  · simp

-- ======================================================== names

/-- What the lines so far say about names. -/
structure Names where
  /-- The tables that local names stand for. -/
  aliases : Aliases
  /-- The tables that were created, looked up or found under a name. -/
  known : List Text
  /-- The names that were assigned. -/
  assigned : List Text
  /-- The names of headers that stood for nothing. -/
  unresolved : List Text

namespace Names

/-- Nothing has been said. -/
def none : Names := ⟨[], [], [], []⟩

/-- A table became known. -/
def know (n : Names) (table : Text) : Names :=
  { n with known := n.known.insert table }

/-- A name was assigned. -/
def assign (n : Names) (name : Text) : Names :=
  { n with assigned := n.assigned.insert name }

/-- A name was bound to a table. -/
def bind (n : Names) (name table : Text) : Names :=
  { (n.assign name).know table with aliases := n.aliases.rebind name table }

/-- A header's name stood for nothing. -/
def leave (n : Names) (name : Text) : Names :=
  { n with unresolved := n.unresolved.insert name }

/-- The tables that a binding may be written for: the known ones, and the
unresolved names that the script never assigns. -/
def bindable (n : Names) : List Text :=
  n.known ++ n.unresolved.filter fun name => !n.assigned.contains name

end Names

-- ======================================================== blocks

/-- A part of a script that is moved or kept as a whole. -/
inductive Block where
  /-- A line, with the table it mentions. -/
  | line (l : Text) (table : Option Text)
  /-- The creation of a table. -/
  | creation (binding : Option Text) (table call : Text)
  /-- The declaration of a local name. -/
  | declaration (name table l : Text)
  /-- Statements in a region of a table. -/
  | context (table : Text) (region : Region) (statements : List Statement)
  deriving DecidableEq

/-- The table that a block refers to. A creation refers to none: it makes
one. -/
def Block.reference? : Block → Option Text
  | line _ table => table
  | declaration _ table _ => some table
  | context table .. => some table
  | creation .. => none

/-- The name that a plain line at the margin assigns. -/
def marginTarget? (l : Text) : Option Text :=
  if indentWidth l = 0 then (assignment? l).map (·.1) else none

/-- The block of a line that is no header, and what is known after it. -/
def blockOfLine (n : Names) (l : Text) : Block × Names :=
  let ts := tokens l
  match creation? ts with
  | some c =>
    (.creation c.binding c.table c.call,
      n.bind (c.binding.getD (tableAlias c.table)) c.table)
  | none =>
    match declaration? ts with
    | some (name, table) =>
        (.declaration name table (Text.trimEnd l), n.bind name table)
    | none =>
      let table := mention? n.aliases ts
      let n := match table with
        | some id => n.know id
        | none => n
      let n := match marginTarget? l with
        | some name => n.assign name
        | none => n
      (.line l table, n)

/-- The table of a header, and what is known after it. -/
def resolve (n : Names) : HeaderTable → Text × Names
  | .id id => (id, n.know id)
  | .name name =>
    match n.aliases.lookup name with
    | some id => (id, n.know id)
    | none => (name, n.leave name)

/-- The block of a chunk, and what is known after it. -/
def blockOf (n : Names) : Chunk → Block × Names
  | .line l => blockOfLine n l
  | .context header body =>
    let (table, n) := resolve n header.table
    (.context table header.region body, n)

/-- The blocks of chunks, and what is known after them. -/
def blocksOf (n : Names) : List Chunk → List Block × Names
  | [] => ([], n)
  | c :: cs =>
    let (block, n) := blockOf n c
    let (blocks, n) := blocksOf n cs
    (block :: blocks, n)

/-- The blocks of lines, and the tables that a binding may be written for. -/
def parseBlocks (ls : List Text) : List Block × List Text :=
  let (blocks, n) := blocksOf .none (chunks ls)
  (blocks, n.bindable)

end GridScript.Script
