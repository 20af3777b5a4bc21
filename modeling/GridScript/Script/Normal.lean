/-
The normal form of a command log. A log is what the editor's commands were
written as, one after the other; its normal form says the same in the
order in which a person would have written it:

* literals are written once a table exists: the statements of its body
  that assign one are gathered, in their order, in a block right after the
  line that creates the table, or else at the first place that refers to
  it;
* the creation of a table binds its local name, and a name is looked up
  again only where it does not stand for the table it is needed for;
* blocks of one region that come to stand next to each other are one.

Every other line and statement keeps its place. The normal form is made
anew each time and is its own normal form.
-/
import GridScript.Script.Block

namespace GridScript.Script

-- ======================================================== literals

/-- Does the statement assign a literal, on one line? -/
def Statement.isData (s : Statement) : Bool :=
  s.nested.isEmpty && (match assignment? s.head with
    | some (_, rhs) => isLiteral rhs
    | none => false)

/-- The statements of a body block on a table that assign literals. -/
def Block.data (table : Text) : Block → List Statement
  | context t .body statements =>
      if t = table then statements.filter Statement.isData else []
  | _ => []

/-- The block without the statements that are gathered elsewhere. -/
def Block.withoutData : Block → Block
  | context t .body statements =>
      context t .body (statements.filter fun s => !s.isData)
  | b => b

/-- The statements on a table that assign literals, in the order of the
script. -/
def dataOf (blocks : List Block) (table : Text) : List Statement :=
  blocks.flatMap (Block.data table)

-- ======================================================== pieces

/-- A run of statements in a region of a table. What was gathered is kept
apart from what was left in place. -/
structure Context where
  table : Text
  region : Region
  gathered : Bool
  statements : List Statement
  deriving DecidableEq

/-- Do the statements belong under one header? -/
def Context.sameScope (a b : Context) : Bool :=
  a.table == b.table && a.region == b.region && a.gathered == b.gathered

/-- A piece of the normal form. -/
inductive Piece where
  | line (l : Text)
  | context (c : Context)
  deriving DecidableEq

/-- Joins blocks of one scope that stand next to each other. -/
def joinPieces : List Piece → List Piece
  | [] => []
  | .line l :: ps => .line l :: joinPieces ps
  | .context c :: ps =>
    match joinPieces ps with
    | .context d :: rest =>
      if c.sameScope d then
        .context { c with statements := c.statements ++ d.statements } :: rest
      else .context c :: .context d :: rest
    | rest => .context c :: rest

/-- A statement's lines inside a block. -/
def Statement.render (s : Statement) : List Text := s.lines.map (indent ++ ·)

/-- The lines of a piece. -/
def Piece.render : Piece → List Text
  | line l => [l]
  | context c =>
      headerLine c.table c.region :: c.statements.flatMap Statement.render

-- ======================================================== emission

/-- What stays the same while a script is written: the tables that a
binding may be written for, the tables that it creates, and the literals
gathered for each table. -/
structure Plan where
  bindable : List Text
  created : List Text
  data : Text → List Statement

/-- What changes while a script is written. -/
structure Progress where
  /-- The tables that local names stand for in what is written. -/
  bound : Aliases
  /-- The tables whose literals are written. -/
  flushed : List Text
  /-- The tables that were referred to. -/
  seen : List Text

namespace Progress

/-- Nothing is written. -/
def none : Progress := ⟨[], [], []⟩

/-- A name was bound to a table. -/
def bind (p : Progress) (name table : Text) : Progress :=
  { p with bound := p.bound.rebind name table }

/-- A name was bound to something else. -/
def unbind (p : Progress) (name : Text) : Progress :=
  { p with bound := p.bound.without name }

/-- Does the name stand for the table? -/
def isBound (p : Progress) (name table : Text) : Bool :=
  p.bound.lookup name == some table

/-- A table was referred to. -/
def see (p : Progress) (table : Option Text) : Progress :=
  { p with seen := table.elim p.seen p.seen.insert }

/-- Is this the first reference to a table that the script does not
create? -/
def isFirst (p : Progress) (plan : Plan) (table : Text) : Bool :=
  !plan.created.contains table && !p.seen.contains table

end Progress

/-- Writing: what is written, and the progress after it. -/
abbrev Written := List Piece × Progress

/-- Binds a table's local name, unless it stands for the table already or
no binding may be written. -/
def writeBinding (plan : Plan) (p : Progress) (table : Text) : Written :=
  if plan.bindable.contains table && !p.isBound (tableAlias table) table then
    ([.line (bindingLine table)], p.bind (tableAlias table) table)
  else ([], p)

/-- Writes statements in a region of a table. -/
def writeContext (plan : Plan) (p : Progress) (c : Context) : Written :=
  if c.statements.isEmpty then ([], p)
  else
    let (binding, p) := writeBinding plan p c.table
    (binding ++ [.context c], p)

/-- Writes the literals gathered for a table, once. -/
def flush (plan : Plan) (p : Progress) (table : Text) : Written :=
  if p.flushed.contains table then ([], p)
  else
    writeContext plan { p with
        flushed := table :: p.flushed } ⟨table, .body, true, plan.data table⟩

/-- Writes the literals of a table if this is its first reference. -/
def flushFirst (plan : Plan) (p : Progress) (table : Option Text) : Written :=
  match table with
  | some id => if p.isFirst plan id then flush plan p id else ([], p)
  | none => ([], p)

/-- Writes a block. -/
def writeBlock (plan : Plan) (p : Progress) : Block → Written
  | .creation binding table call =>
    let name := binding.getD (tableAlias table)
    let (data, p) := flush plan (p.bind name table) table
    (.line (name ++ " = ".toList ++ call) :: data, p)
  | .declaration name table l =>
    let redundant := name == tableAlias table && p.isBound name table
    let (declared, p) :=
      if redundant then ([], p) else ([.line l], p.bind name table)
    let (data, p) := flushFirst plan p (some table)
    (declared ++ data, p)
  | .line l table =>
    let p := match marginTarget? l with
      | some name => p.unbind name
      | none => p
    let (data, p) := flushFirst plan p table
    (.line l :: data, p)
  | .context table region statements =>
    let (data, p) := flushFirst plan p (some table)
    let (own, p) := writeContext plan p ⟨table, region, false, statements⟩
    (data ++ own, p)

/-- Writes blocks in order. -/
def writeBlocks (plan : Plan) (p : Progress) : List Block → Written
  | [] => ([], p)
  | b :: bs =>
    let (first, p) := writeBlock plan p b
    let (rest, p) := writeBlocks plan (p.see b.reference?) bs
    (first ++ rest, p)

/-- Writes the literals of several tables. -/
def flushAll (plan : Plan) (p : Progress) : List Text → Written
  | [] => ([], p)
  | table :: tables =>
    let (first, p) := flush plan p table
    let (rest, p) := flushAll plan p tables
    (first ++ rest, p)

/-- The tables that blocks hold literals for, in order and once each. -/
def dataTables (blocks : List Block) : List Text :=
  let tables := blocks.filterMap fun
    | .context t .body statements =>
        if statements.any Statement.isData then some t else none
    | _ => none
  (tables.mergeSort fun a b => compare a b != .gt).eraseDups

/-- The plan for blocks. -/
def planFor (blocks : List Block) (bindable : List Text) : Plan where
  bindable := bindable
  created := (blocks.filterMap fun
    | .creation _ table _ => some table
    | _ => none).eraseDups
  data := dataOf blocks

/-- The pieces that blocks are written as. The literals of a table that no
place was found for come last, so that none can be lost. -/
def piecesOf (blocks : List Block) (bindable : List Text) : List Piece :=
  let plan := planFor blocks bindable
  let (pieces, p) := writeBlocks plan .none (blocks.map Block.withoutData)
  let (rest, _) := flushAll plan p (dataTables blocks)
  joinPieces (pieces ++ rest)

-- ======================================================== logs

/-- The lines of a log, whose elements may hold several lines each. -/
def flatLines (log : List Text) : List Text :=
  (log.flatMap (Text.splitOn '\n')).map (Text.dropLast '\r')

/-- The normal form of lines. -/
def normalLines (ls : List Text) : List Text :=
  let (blocks, bindable) := parseBlocks ls
  (piecesOf blocks bindable).flatMap Piece.render

/-- The normal form of a log. A log of one empty line is an empty one. -/
def normalize (log : List Text) : List Text :=
  let ls := flatLines log
  if ls = [] ∨ ls = [[]] then [] else normalLines ls

/-- The lines of a log as one text. -/
def logText (ls : List Text) : Text :=
  if ls.isEmpty then [] else Text.joinWith ['\n'] ls ++ ['\n']

/-- The normal form of a log that is one text. -/
def normalizeText (t : Text) : Text := logText (normalize (Text.lines t))

end GridScript.Script
