/-
The JSON text in which a finished run reports its project, and in which a
project is exported. Writing is in a fixed order of members, and cells,
formulas and column types are in the order of their keys as texts.

Reading is lenient where a program may have reported too much or too
little: members that are not known are passed over, a cell whose key is no
address is dropped, an empty cell is not stored, and the types of columns
may be a list or an object keyed by column. A value that cannot be read is
an error wherever it stands.
-/
import GridScript.Json.Printer
import GridScript.Json.Reader
import GridScript.Project.Basic
import GridScript.Value.Json

namespace GridScript

/-- An object with its members in order. -/
def Json.record (members : List (String × Json)) : Json :=
  .object (members.map fun (name, j) => (name.toList, j))

-- ======================================================== layout

namespace Rect

/-- A rectangle in JSON. -/
def toJson (r : Rect) : Json :=
  .record
    [("x", .ofDouble r.x), ("y", .ofDouble r.y), ("width", .ofDouble r.width),
      ("height", .ofDouble r.height)]

/-- Reads a rectangle. -/
def ofJson? (j : Json) : Option Rect := do
  match ← Json.fields? (["x", "y", "width", "height"].map String.toList)
    false j with
  | [x, y, width, height] =>
    return ⟨← Json.required? Json.asDouble? x, ← Json.required?
      Json.asDouble? y, ← Json.required? Json.asDouble? width, ← Json.required?
        Json.asDouble? height⟩
  | _ => none

end Rect

namespace LabelBands

/-- Label bands in JSON. -/
def toJson (b : LabelBands) : Json :=
  .record [("topRows", .ofNat b.top), ("bottomRows", .ofNat b.bottom),
    ("leftCols", .ofNat b.left), ("rightCols", .ofNat b.right)]

/-- Reads label bands. -/
def ofJson? (j : Json) : Option LabelBands := do
  match ← Json.fields?
      (["topRows", "bottomRows", "leftCols", "rightCols"].map String.toList)
      false j with
  | [top, bottom, left, right] =>
    return {
      top := ← Json.required? Json.asWord? top
      bottom := ← Json.required? Json.asWord? bottom
      left := ← Json.required? Json.asWord? left
      right := ← Json.required? Json.asWord? right }
  | _ => none

end LabelBands

namespace Snapshot

-- ======================================================== sizes

/-- The size of a body and its label bands. -/
structure Grid where
  rows : Nat
  cols : Nat
  bands : LabelBands

/-- Reads a size. -/
def readGrid? (j : Json) : Option Grid := do
  match ← Json.fields?
    (["bodyRows", "bodyCols", "labelBands"].map String.toList) false j with
  | [rows, cols, bands] =>
    return ⟨← Json.required? Json.asWord? rows, ← Json.required?
      Json.asWord? cols, ← Json.defaulted? .none LabelBands.ofJson? bands⟩
  | _ => none

/-- The size of a table in JSON. -/
def gridJson (t : Table) : Json :=
  .record [("bodyRows", .ofNat t.rows), ("bodyCols", .ofNat t.cols),
    ("labelBands", t.bands.toJson)]

-- ======================================================== cells

/-- How many brackets stand around a cell's value. -/
def valueDepth : Nat := 6

/-- Reads the values of cells by their keys; of one key given twice the
last counts. -/
def readValues? (j : Json) : Option (SortedMap Text Value) :=
  (Json.asMembers? (Value.ofJson? valueDepth) j).map SortedMap.ofList

/-- The cells that keys name, in the order of the keys. A key that names
none is dropped, and an empty value neither stored nor taken as a reason
to forget another. -/
def cellsOf (values : SortedMap Text Value) : SortedMap Cell Value :=
  .ofList (values.entries.filterMap fun (key, v) =>
    match Cell.parse key with
    | .ok c => if v.isEmpty then none else some (c, v)
    | .error _ => none)

/-- An object in the order of its members' names. -/
def sortedObject (members : List (Text × Json)) : Json :=
  .object (SortedMap.ofList members).entries

/-- The cells of a table in JSON. -/
def cellsJson (t : Table) : Json :=
  sortedObject (t.cells.entries.map fun (c, v) => (c.text, v.toJson))

-- ======================================================== formulas

/-- Reads a formula. Its mode is not kept but has to be a text. -/
def readFormula? (j : Json) : Option Text := do
  match ← Json.fields? (["formula", "mode"].map String.toList) false j with
  | [formula, mode] =>
    let _ ← Json.defaulted? none (Json.asOptional? Json.asText?) mode
    Json.required? Json.asText? formula
  | _ => none

/-- Reads the formulas by their targets. -/
def readFormulas? (j : Json) : Option (SortedMap Text Text) :=
  (Json.asMembers? readFormula? j).map SortedMap.ofList

/-- The formulas of a table in JSON. -/
def formulasJson (t : Table) : Json :=
  .object (t.formulas.entries.map fun (target, formula) =>
    (target,
      .record
        [("formula", .text formula), ("mode", .text "spreadsheet".toList)]))

-- ======================================================== column types

/-- How many brackets stand around the types of columns. -/
def columnTypesDepth : Nat := 5

/-- The types of columns from an object, in the order of its keys. A key
that is no number is dropped. -/
def typesOfMembers (members : SortedMap Text Text) : SortedMap Nat Text :=
  .ofList (members.entries.filterMap fun (key, type) =>
    (Number.readWord? (Text.trim key)).map (·, type))

/-- The types of columns from a list, in which a column may have none. -/
def typesOfList (types : List (Option Text)) : SortedMap Nat Text :=
  .ofList (types.zipIdx.filterMap fun (type, col) => type.map (col, ·))

/-- Reads the types of columns in either form. -/
def readColumnTypes? (j : Json) : Option (SortedMap Nat Text) :=
  if !j.isKept columnTypesDepth then none
  else
    match j with
    | .object _ =>
        (Json.asMembers? Json.asText? j).map fun ms =>
          typesOfMembers (.ofList ms)
    | j => (Json.asList? (Json.asOptional? Json.asText?) j).map typesOfList

/-- The types of a table's columns in JSON. -/
def columnTypesJson (t : Table) : Json :=
  sortedObject
    (t.columnTypes.entries.map fun (col, type) =>
      (Number.decimal col, .text type))

-- ======================================================== tables

/-- The members of a table. -/
def tableMembers : List Text :=
  ["id", "name", "rect", "gridSpec", "cellValues", "formulas",
    "bodyColumnTypes"].map String.toList

/-- Reads a table of a sheet. -/
def readTable? (sheetId : Text) (j : Json) : Option Table := do
  match ← Json.fields? tableMembers false j with
  | [id, name, rect, grid, values, formulas, types] =>
    let id ← Json.required? Json.asText? id
    let name ← Json.defaulted? [] Json.asText? name
    let rect ← Json.defaulted? default Rect.ofJson? rect
    let grid ← Json.required? readGrid? grid
    let values ← Json.defaulted? .empty readValues? values
    let formulas ← Json.defaulted? .empty readFormulas? formulas
    let types ← Json.defaulted? none (Json.asOptional? readColumnTypes?) types
    return { Table.blank id sheetId name rect grid.rows grid.cols with
      bands := grid.bands
      cells := cellsOf values
      formulas := formulas
      columnTypes := types.getD .empty }
  | _ => none

/-- A table in JSON. -/
def tableJson (t : Table) : Json :=
  let types := if t.columnTypes.isEmpty then []
      else [("bodyColumnTypes", columnTypesJson t)]
  .record
    ([("id", .text t.id), ("name", .text t.name), ("rect", t.rect.toJson),
      ("gridSpec", gridJson t), ("cellValues", cellsJson t),
      ("formulas", formulasJson t)] ++ types)

-- ======================================================== sheets

/-- Reads a sheet and its tables. -/
def readSheet? (j : Json) : Option (Sheet × List Table) := do
  match ← Json.fields? (["id", "name", "tables"].map String.toList) false j
    with
  | [id, name, tables] =>
    let id ← Json.required? Json.asText? id
    let name ← Json.required? Json.asText? name
    let tables ← Json.defaulted? [] (Json.asList? (readTable? id)) tables
    return (⟨id, name, tables.map Table.id⟩, tables)
  | _ => none

/-- A sheet of a project in JSON. -/
def sheetJson (p : Project) (s : Sheet) : Json :=
  .record [("id", .text s.id), ("name", .text s.name),
    ("tables", .array ((s.tableIds.filterMap p.table?).map tableJson))]

end Snapshot

namespace Project

/-- The project of sheets. Of two tables with one identifier the later
stands for both. -/
def ofSheets (sheets : List (Sheet × List Table)) : Project :=
  ⟨sheets.map (·.1),
    .ofList (sheets.flatMap fun (_, ts) => ts.map fun t => (t.id, t))⟩

/-- Reads a project. -/
def ofJson? (j : Json) : Option Project := do
  match ← Json.fields? ["sheets".toList] false j with
  | [sheets] =>
      return ofSheets
        (← Json.defaulted? [] (Json.asList? Snapshot.readSheet?) sheets)
  | _ => none

/-- A project in JSON. -/
def toJson (p : Project) : Json :=
  .record [("sheets", .array (p.sheets.map (Snapshot.sheetJson p)))]

/-- Reads the text of a snapshot. -/
def parse? (t : Text) : Option Project := (Json.read? t).bind ofJson?

/-- The text of the project's snapshot. -/
def text (p : Project) : Text := p.toJson.pretty

end Project

end GridScript
