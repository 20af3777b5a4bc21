/-
What a user can do to a project. A command is a record of one action: it is
applied to the project, and it is written into the script. It does not
change once it is made.

Some commands do nothing, such as a resize that names no size. They are
commands all the same, but they leave the project as it is and write no
line.
-/
import GridScript.Formula.Form
import GridScript.Project.Basic

namespace GridScript

/-- A table that is to be created. -/
structure NewTable where
  sheetId : Text
  tableId : Text
  name : Text
  rect : Rect
  rows : Nat
  cols : Nat
  bands : LabelBands
  deriving DecidableEq

/-- A summary table that is to be created. -/
structure NewSummary where
  sheetId : Text
  tableId : Text
  name : Text
  rect : Rect
  /-- The table that is summed up. -/
  source : Text
  /-- The part of it, if not all. -/
  range : Option CellRange
  groupBy : List Text
  /-- The aggregates, each with the column that it sums up. -/
  values : List (Text × Text)
  deriving DecidableEq

/-- An action of the user. -/
inductive Command where
  | createSheet (sheetId name : Text)
  | renameSheet (sheetId name : Text)
  | createTable (table : NewTable)
  | createSummary (summary : NewSummary)
  | moveTable (tableId : Text) (x y : Double)
  /-- Only the given dimensions change. -/
  | resizeTable (tableId : Text) (rows cols : Option Nat)
  /-- Shrinks the body to a size, if there is a smaller one. -/
  | minimizeTable (tableId : Text) (size : Option (Nat × Nat))
  | setBands (tableId : Text) (bands : LabelBands)
  | setCells (tableId : Text) (cells : SortedMap Cell Value)
  /-- Writes rows of values from a cell on. -/
  | setRange (tableId : Text) (start : Cell) (values : List (List Value))
  /-- Sets a formula; one that is empty clears the target. -/
  | setFormula (tableId : Text) (target : Target) (formula : Text)
  | insertRows (tableId : Text) (at_ count : Nat)
  | insertCols (tableId : Text) (at_ count : Nat)
  | setColumnType (tableId : Text) (col : Nat) (type : Text)
  /-- Lines that are in the script already. They change nothing. -/
  | script (lines : List Text)
  deriving DecidableEq

namespace Command

-- ======================================================== making commands

/-- Resizes a table, naming only the dimensions that differ. -/
def resizeTo (t : Table) (rows cols : Nat) : Command :=
  .resizeTable t.id (if rows = t.rows then none else some rows)
    (if cols = t.cols then none else some cols)

/-- Shrinks a table to what it holds. -/
def minimizing (t : Table) : Command :=
  .minimizeTable t.id (t.footprint.filter fun size => size != (t.rows, t.cols))

/-- Writes one cell. -/
def setCell (tableId : Text) (c : Cell) (v : Value) : Command :=
  .setCells tableId (SortedMap.empty.insert c v)

-- ======================================================== parts

/-- The table that the command is about, if it is about one. -/
def tableId? : Command → Option Text
  | createSheet .. => none
  | renameSheet .. => none
  | createTable table => some table.tableId
  | createSummary summary => some summary.tableId
  | moveTable id .. => some id
  | resizeTable id .. => some id
  | minimizeTable id _ => some id
  | setBands id _ => some id
  | setCells id _ => some id
  | setRange id .. => some id
  | setFormula id .. => some id
  | insertRows id .. => some id
  | insertCols id .. => some id
  | setColumnType id .. => some id
  | script _ => none

/-- The cells that rows of values fill from a cell on, row by row. -/
def rangeCells (start : Cell) (values : List (List Value)) :
    List (Cell × Value) :=
  values.zipIdx.flatMap fun (row, r) =>
    row.zipIdx.map fun (v, c) =>
      (⟨start.region, start.row + r, start.col + c⟩, v)

/-- Does a formula clear its target? -/
def clears (formula : Text) : Bool := (Formula.body formula).isEmpty

/-- A formula as it is stored: its body behind an equals sign. -/
def storedFormula (formula : Text) : Text := '=' :: Formula.body formula

/-- Does the command do nothing? -/
def isIdle : Command → Bool
  | resizeTable _ rows cols => rows.isNone && cols.isNone
  | minimizeTable _ size => size.isNone
  | setCells _ cells => cells.isEmpty
  | setRange _ _ values => values.all List.isEmpty
  | insertRows _ _ count => count == 0
  | insertCols _ _ count => count == 0
  | script lines => lines.isEmpty
  | _ => false

end Command

end GridScript
