/-
Exported scripts. An export rebuilds every table as arrays and needs
nothing but the array library, so it can be handed to someone who does not
have the editor. Each table is a section of its own: its body, its label
bands, its formulas as text, and an entry under its identifier.

On request the formulas of single cells are written as array expressions
too. One that has no such expression is left as a comment, and so is every
formula of a range. A formula is written only for a region that the
section has an array for.
-/
import GridScript.Formula.Form
import GridScript.Project.Basic
import GridScript.Script.Vocabulary

namespace GridScript.Export

/-- What an export covers beyond the bodies. -/
structure Options where
  /-- The label bands. -/
  labels : Bool
  /-- The formulas of single cells, as expressions. -/
  formulas : Bool

/-- Numbers with a comma between, as an index or a size. -/
def pair (a b : Nat) : Text :=
  Number.decimal a ++ ", ".toList ++ Number.decimal b

/-- The text on one line: line breaks become spaces. -/
def oneLine (t : Text) : Text :=
  t.map fun c => if c = '\n' ∨ c = '\r' then ' ' else c

-- ======================================================== values

/-- A value as an expression. Dates and times are those of the array
library. -/
def literal : Value → Text
  | .date d => "np.datetime64('".toList ++ d.text ++ "')".toList
  | .time s => "np.timedelta64(".toList ++ Number.decimal s ++ ", 's')".toList
  | v => v.literal

/-- An element of an array. -/
def element (array : Text) (row col : Nat) : Text :=
  array ++ '[' :: pair row col ++ [']']

/-- The assignment to an element. -/
def elementLine (region : Region) (row col : Nat) (rhs : Text) : Text :=
  element region.name row col ++ " = ".toList ++ rhs

-- ======================================================== regions

/-- The values of a region that lie within its size, in order. -/
def storedCells (t : Table) (region : Region) : List (Cell × Value) :=
  t.cells.entries.filter fun (c, _) =>
    c.region == region && decide (c.row < (t.regionSize region).1) &&
      decide (c.col < (t.regionSize region).2)

/-- The line that creates the array of a region. -/
def arrayLine (t : Table) (region : Region) (numeric : Bool) : Text :=
  let size :=
    '(' :: pair (t.regionSize region).1 (t.regionSize region).2 ++ [')']
  region.name ++ " = ".toList ++
    if numeric then
      "np.full(".toList ++ size ++ ", np.nan, dtype=float)".toList
    else "np.empty(".toList ++ size ++ ", dtype=object)".toList

/-- The lines that rebuild a region. A body of numbers alone is an array of
numbers, in which empty cells are not-a-number. -/
def regionLines (t : Table) (region : Region) : List Text :=
  let cells := storedCells t region
  arrayLine t region
    (region == .body && cells.all fun (_, v) => v.isNumericOrEmpty) ::
    cells.map fun (c, v) => elementLine region c.row c.col (literal v)

/-- The regions that a table's section has arrays for. -/
def storedRegions (t : Table) (o : Options) : List Region :=
  .body :: if o.labels then
    Region.all.filter fun r =>
      r.isLabel && decide (0 < (t.regionSize r).1)
        && decide (0 < (t.regionSize r).2)
  else []

-- ======================================================== formulas

/-- The array that a table's name stands for in a formula: the body in this
section, for the table itself, or that of another table. -/
def arrayOf (t : Table) : Option Text → Text
  | some q =>
    if q ≠ t.id ∧ q ≠ Script.tableAlias t.id then
      "tables[".toList ++ Script.quote q ++ "]['body']".toList
    else Region.body.name
  | none => Region.body.name

/-- The cells of an array that a range covers, as half-open spans. Their
ends are words: behind the last row that there can be comes row zero, or, if
sums are checked, the program stops. -/
def slice (array : Text) (r : CellRange) : Text :=
  let span (start stop : Nat) : Text :=
    Number.decimal start ++ ':' :: Number.decimal (Number.wordAfter stop)
  array ++ '[' :: span r.startRow r.endRow ++ ", ".toList
    ++ span r.startCol r.endCol ++ [']']

/-- An argument cut into the table in front of its last point and the cells
behind it. -/
def cutTable (argument : Text) : Option Text × Text :=
  match Text.cutAtLast? '.' argument with
  | some (table, cells) => (some table, cells)
  | none => (none, argument)

/-- An argument of an aggregate as an operand. -/
def operand? (t : Table) (argument : Text) : Option Text :=
  if Number.isNumeral argument then some argument
  else
    let (table, cells) := cutTable (argument.filter (· != '$'))
    if cells.contains ':' then
      (CellRange.parse cells).toOption.map (slice (arrayOf t table))
    else
      (Cell.parse cells).toOption.map fun c =>
        element (arrayOf t table) c.row c.col

/-- A token of an inline formula in an exported expression. -/
def token? (t : Table) : Formula.InlineToken → Option Text
  | .reference table cell =>
    (Cell.parse cell).toOption.map fun c =>
      element (arrayOf t table) c.row c.col
  | token => some token.source

/-- The expression of a formula, if it has one. -/
def expression? (t : Table) : Formula.Form → Option Text
  | .aggregate a arguments => do
    let operands ← arguments.mapM (operand? t)
    let (before, after) := a.reducer
    return before ++ Literal.list operands ++ after
  | .inline expr => do
    let tokens ← Formula.inlineTokens? expr
    return (← tokens.mapM (token? t)).flatten
  | .fallback _ => none

/-- The line for the formula of a cell. -/
def formulaLine (t : Table) (target : Cell) (formula : Text) : Text :=
  match expression? t (Formula.form formula) with
  | some rhs => elementLine target.region target.row target.col rhs
  | none => "# not exported: ".toList ++ target.text ++ ' ' :: oneLine formula

/-- The lines for the formulas of a table. -/
def formulaLines (t : Table) (o : Options) : List Text :=
  if o.formulas then
    (t.cellFormulas.filter fun (c, _) =>
        (storedRegions t o).contains c.region).map
        (fun (c, formula) => formulaLine t c formula) ++
      (t.formulas.keys.filter fun key => key.contains ':').map fun key =>
        "# not exported (range target): ".toList ++ oneLine key
  else []

/-- The formulas of a table as a dictionary of texts. -/
def formulaTexts (t : Table) : Text :=
  '{' :: Text.joinWith ", ".toList
    (t.formulas.entries.map fun (key, formula) =>
      Script.quote key ++ ": ".toList ++ Script.quote formula) ++ ['}']

-- ======================================================== tables

/-- The entry that a table's section leaves behind. -/
def entry (t : Table) (o : Options) : Text :=
  let regions :=
    (storedRegions t o).map fun r => '\'' :: r.name ++ "': ".toList ++ r.name
  '{' :: Text.joinWith ", ".toList
    (("'name': ".toList ++ Script.quote t.name) :: regions ++
      ["'formulas': formulas".toList]) ++ ['}']

/-- The section of a table. -/
def tableLines (t : Table) (o : Options) : List Text :=
  ["# ".toList ++ oneLine t.name ++ " (".toList ++ oneLine t.id ++ [')']] ++
    (storedRegions t o).flatMap (regionLines t) ++
    ["formulas = ".toList ++ formulaTexts t] ++
    formulaLines t o ++
    ["tables[".toList ++ Script.quote t.id ++ "] = ".toList ++ entry t o]

-- ======================================================== scripts

/-- What stands in front of the tables. -/
def opening : List Text :=
  ["import numpy as np",
   "",
   "",
   "def _flatten(items):",
   "    out = []",
   "    for item in items:",
   "        if isinstance(item, np.ndarray):",
   "            out.extend(item.ravel().tolist())",
   "        else:",
   "            out.append(item)",
   "    return out",
   "",
   "",
   "def _values(items):",
   "    return [v for v in _flatten(items)",
   "            if v is not None and not (isinstance(v, float) and np.isnan(v))]",
   "",
   "",
   "def _numbers(items):",
   "    return [float(v) for v in _values(items)",
   "            if isinstance(v, (int, float)) and not isinstance(v, bool)]",
   "",
   "",
   "tables = \x7b\x7d"].map String.toList

/-- What stands behind the tables. -/
def closing : List Text :=
  ["",
   "",
   "if __name__ == '__main__':",
   "    for table_id, table in tables.items():",
   "        print(table_id)",
   "        print(table['body'])"].map String.toList

/-- The exported script of a project. -/
def script (p : Project) (o : Options) : Text :=
  Text.unlines
    (opening ++ p.listedTables.flatMap (fun t => [] :: tableLines t o)
      ++ closing)

end GridScript.Export
