/-
What commands do to a project. A command that names a sheet or a table
that is not there is refused, and so is one that takes an identifier twice;
a refused command changes nothing.
-/
import GridScript.Command.Basic

namespace GridScript

namespace NewTable

/-- The table, with nothing in it yet. -/
def table (n : NewTable) : Table :=
  { Table.blank n.tableId n.sheetId n.name n.rect n.rows n.cols with
    bands := n.bands }

end NewTable

namespace NewSummary

/-- The columns of the table: one for each group and aggregate, but at
least one. -/
def columns (n : NewSummary) : Nat :=
  max (n.groupBy.length + n.values.length) 1

/-- The table. It has one row until a run fills it. -/
def table (n : NewSummary) : Table :=
  { Table.blank n.tableId n.sheetId n.name n.rect 1 n.columns with
    summary :=
      some ⟨n.source, n.range.map CellRange.text, n.groupBy, n.values⟩ }

end NewSummary

namespace Table

/-- The table with other dimensions of its body, where they are given. -/
def resized (t : Table) (rows cols : Option Nat) : Table :=
  { t with rows := rows.getD t.rows, cols := cols.getD t.cols }

/-- The table after a formula is set on a target. Clearing a target clears
its values with it. -/
def setFormula (t : Table) (target : Target) (formula : Text) : Table :=
  if Command.clears formula then
    { t.clear target with formulas := t.formulas.erase target.text }
  else
    { t with
      formulas :=
        t.formulas.insert target.text (Command.storedFormula formula) }

end Table

/-- The project after a command. -/
def Command.apply (p : Project) : Command → Except ProjectError Project
  | createSheet id name => p.addSheet id name
  | renameSheet id name => p.changeSheet id fun s => { s with name := name }
  | createTable new => p.addTable new.table
  | createSummary new =>
    match p.table? new.source with
    | none => .error (.unknownTable new.source)
    | some _ => p.addTable new.table
  | moveTable id x y =>
      p.changeTable id fun t => { t with
          rect := { t.rect with x := x, y := y } }
  | resizeTable id rows cols => p.changeTable id fun t => t.resized rows cols
  | minimizeTable id size =>
    p.changeTable id fun t => t.resized (size.map (·.1)) (size.map (·.2))
  | setBands id bands => p.changeTable id fun t => { t with bands := bands }
  | setCells id cells => p.changeTable id fun t => t.writeAll cells.entries
  | setRange id start values =>
      p.changeTable id fun t => t.writeAll (rangeCells start values)
  | setFormula id target formula =>
      p.changeTable id fun t => t.setFormula target formula
  | insertRows id _ count =>
      p.changeTable id fun t => { t with rows := t.rows + count }
  | insertCols id _ count =>
      p.changeTable id fun t => { t with cols := t.cols + count }
  | setColumnType id col type =>
    p.changeTable id fun t => { t with
        columnTypes := t.columnTypes.insert col type }
  | script _ => .ok p

end GridScript
