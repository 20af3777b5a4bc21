/-
A table as the editor believes it to be: its place and size, the literal
values in its cells, and the formulas set on its targets. Empty cells are
absent, so two tables that show the same are the same.

A formula is kept under the text of its target. That text is the same for
every spelling of one target, so a target has at most one formula.
-/
import GridScript.Grid.Address
import GridScript.Grid.Layout
import GridScript.Value.Basic

namespace GridScript

/-- What a summary table is derived from. -/
structure Summary where
  /-- The table that is summed up. -/
  source : Text
  /-- The part of it, if not all. -/
  range : Option Text
  /-- The columns to group by. -/
  groupBy : List Text
  /-- The aggregates, each with the column that it sums up. -/
  values : List (Text × Text)
  deriving DecidableEq

/-- A table. -/
structure Table where
  id : Text
  name : Text
  /-- The sheet that it stands on. -/
  sheetId : Text
  rect : Rect
  /-- The rows of the body. -/
  rows : Nat
  /-- The columns of the body. -/
  cols : Nat
  bands : LabelBands
  /-- The values of cells that are not empty. -/
  cells : SortedMap Cell Value
  /-- The formulas, with their equals sign, by the text of their target. -/
  formulas : SortedMap Text Text
  /-- The types of body columns. -/
  columnTypes : SortedMap Nat Text
  summary : Option Summary
  deriving DecidableEq

namespace Table

/-- A table with nothing in it. -/
def blank (id sheetId name : Text) (rect : Rect) (rows cols : Nat) :
    Table where
  id := id
  name := name
  sheetId := sheetId
  rect := rect
  rows := rows
  cols := cols
  bands := .none
  cells := .empty
  formulas := .empty
  columnTypes := .empty
  summary := none

-- ======================================================== values

/-- The value that a cell holds, if it is not empty. -/
def value? (t : Table) (c : Cell) : Option Value := t.cells.get? c

/-- The table after a value is written to a cell; an empty one clears it. -/
def write (t : Table) (c : Cell) (v : Value) : Table :=
  { t with cells := if v.isEmpty then t.cells.erase c else t.cells.insert c v }

/-- The table after values are written one after the other. -/
def writeAll (t : Table) (cells : List (Cell × Value)) : Table :=
  cells.foldl (fun t (c, v) => t.write c v) t

/-- The table after all the cells of a target are cleared. -/
def clear (t : Table) : Target → Table
  | .cell c => { t with cells := t.cells.erase c }
  | .range r => { t with cells := t.cells.filter fun c _ => !r.contains c }

-- ======================================================== formulas

/-- The formula set on a target. -/
def formula? (t : Table) (target : Target) : Option Text :=
  t.formulas.get? target.text

/-- The target that a key names, if it names one. -/
def keyTarget? (key : Text) : Option Target := (Target.parse key).toOption

/-- The cell that a key names, if it names one. -/
def keyCell? (key : Text) : Option Cell :=
  match keyTarget? key with
  | some (.cell c) => some c
  | _ => none

/-- The formulas set on single cells, in the order of the cells. Two keys
may name one cell if they came from outside; their own order stays. -/
def cellFormulas (t : Table) : List (Cell × Text) :=
  (t.formulas.entries.filterMap fun (key, formula) =>
    (keyCell? key).map (·, formula)).mergeSort
    fun a b => compare a.1 b.1 != .gt

-- ======================================================== sizes

/-- The rows and columns of a region. -/
def regionSize (t : Table) : Region → Nat × Nat
  | .body => (t.rows, t.cols)
  | .topLabels => (t.bands.top, t.cols)
  | .bottomLabels => (t.bands.bottom, t.cols)
  | .leftLabels => (t.rows, t.bands.left)
  | .rightLabels => (t.rows, t.bands.right)

/-- The last row and column of a target. -/
def lastOf : Target → Nat × Nat
  | .cell c => (c.row, c.col)
  | .range r => (r.endRow, r.endCol)

/-- The cells of the body that hold something: each cell with a value, and
the last cell of each target with a formula. -/
def occupied (t : Table) : List (Nat × Nat) :=
  (t.cells.keys.filter fun c => c.region == .body).map
    (fun c => (c.row, c.col)) ++
    ((t.formulas.keys.filterMap keyTarget?).filter fun target => target.region
      == .body).map lastOf

/-- A size enlarged to hold a cell. -/
def enlarge (size : Option (Nat × Nat)) (cell : Nat × Nat) :
    Option (Nat × Nat) :=
  let (rows, cols) := size.getD (0, 0)
  some (max rows (cell.1 + 1), max cols (cell.2 + 1))

/-- The least size of a body that holds everything in it; none if there is
nothing. -/
def footprint (t : Table) : Option (Nat × Nat) := t.occupied.foldl enlarge none

end Table

end GridScript
