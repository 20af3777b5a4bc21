/-
Commands as lines of a script. Most are one call on the project or on a
table. Writing cells takes several lines: the table's local name is bound,
and under a header for each region the cells are assigned.

Ids, names and values are quoted, and a quoted text has no line breaks. An
inline formula is not quoted: it is written as it stands, so a line break
among its blanks is one in the script.
-/
import GridScript.Command.Basic
import GridScript.Script.Vocabulary

namespace GridScript.Command

-- ======================================================== calls

/-- A call of a method of the project. -/
def projectCall (method : String) (args : List Text) : Text :=
  Script.projectName ++ '.' :: Literal.call method args

/-- A call of a method of a table. -/
def tableCall (tableId : Text) (method : String) (args : List Text) : Text :=
  Script.lookupCall tableId ++ '.' :: Literal.call method args

/-- A keyword argument. -/
def keyword (name : String) (v : Text) : Text := name.toList ++ '=' :: v

/-- A quoted text as a keyword argument. -/
def quotedKeyword (name : String) (t : Text) : Text :=
  keyword name (Script.quote t)

/-- A number as a keyword argument. -/
def countKeyword (name : String) (n : Nat) : Text :=
  keyword name (Number.decimal n)

/-- The call that creates a table. -/
def creationCall (n : NewTable) : Text :=
  projectCall "add_table"
    [Script.quote n.sheetId, quotedKeyword "table_id" n.tableId,
     quotedKeyword "name" n.name, keyword "rect" (Literal.rect n.rect),
     countKeyword "rows" n.rows, countKeyword "cols" n.cols,
     keyword "labels" (Literal.bands n.bands)]

/-- The aggregate of a column as an argument. -/
def aggregateArgument (aggregate col : Text) : Text :=
  Literal.call "dict" [quotedKeyword "agg" aggregate, quotedKeyword "col" col]

/-- The call that creates a summary table. -/
def summaryCall (n : NewSummary) : Text :=
  projectCall "add_summary_table"
    ([Script.quote n.sheetId, quotedKeyword "table_id" n.tableId,
      quotedKeyword "name" n.name, keyword "rect" (Literal.rect n.rect),
      quotedKeyword "source_table_id" n.source] ++
     (n.range.map fun r => quotedKeyword "source_range" r.text).toList ++
     [keyword "group_by" (Literal.texts n.groupBy),
      keyword "values"
        (Literal.list
          (n.values.map fun (aggregate, col) =>
            aggregateArgument aggregate col))])

/-- The arguments for the dimensions that change. -/
def dimensions (rows cols : Option Nat) : List Text :=
  (rows.map (countKeyword "rows")).toList
    ++ (cols.map (countKeyword "cols")).toList

-- ======================================================== blocks

/-- A block of a region: its header and its statements. Without statements
there is no block. -/
def blockLines (tableId : Text) (region : Region) (statements : List Text) :
    List Text :=
  if statements.isEmpty then []
  else Script.headerLine tableId region :: statements.map (Script.indent ++ ·)

/-- The assignment of a value to a cell. -/
def cellLine (c : Cell) (v : Value) : Text :=
  c.ident ++ " = ".toList ++ v.literal

/-- The regions in the order of their names. -/
def regionsByName : List Region :=
  [.body, .bottomLabels, .leftLabels, .rightLabels, .topLabels]

/-- Cells in the order of the texts of their addresses. -/
def cellsByText (cells : List (Cell × Value)) : List (Cell × Value) :=
  cells.mergeSort fun a b => compare a.1.text b.1.text != .gt

/-- The blocks that assign cells, one for each region. -/
def cellBlocks (tableId : Text) (cells : List (Cell × Value)) : List Text :=
  regionsByName.flatMap fun region =>
    blockLines tableId region
      (((cellsByText cells).filter fun (c, _) => c.region == region).map
        fun (c, v) => cellLine c v)

/-- Lines behind the binding of a table's local name; no lines need no
binding. -/
def bound (tableId : Text) (lines : List Text) : List Text :=
  if lines.isEmpty then [] else Script.bindingLine tableId :: lines

-- ======================================================== lines

/-- The lines that set a formula. A single cell is assigned in the body's
block, also one in a label band; a range is set by a call. -/
def formulaLines (tableId : Text) (target : Target) (formula : Text) :
    List Text :=
  if clears formula then
    [tableCall tableId "set_formula"
      [Script.quote target.text, Script.quote []]]
  else
    match target with
    | .cell c =>
        bound tableId (blockLines tableId .body [Formula.assignment c formula])
    | .range r =>
      [tableCall tableId "set_formula"
        [Script.quote r.text, Script.quote (storedFormula formula)]]

/-- The lines of a command. -/
def render : Command → List Text
  | createSheet id name =>
    [projectCall "add_sheet" [Script.quote name, quotedKeyword "sheet_id" id]]
  | renameSheet id name =>
      [projectCall "rename_sheet" [Script.quote id, quotedKeyword "name" name]]
  | createTable new => [creationCall new]
  | createSummary new => [summaryCall new]
  | moveTable id x y =>
      [tableCall id "set_position" [Literal.number x, Literal.number y]]
  | resizeTable id rows cols =>
    let args := dimensions rows cols
    if args.isEmpty then [] else [tableCall id "resize" args]
  | minimizeTable id size =>
      if size.isSome then [tableCall id "minimize" []] else []
  | setBands id bands =>
      [tableCall id "set_labels" (Literal.bandArguments bands)]
  | setCells id cells => bound id (cellBlocks id cells.entries)
  | setRange id start values =>
    bound id
      (blockLines id start.region
        ((rangeCells start values).map fun (c, v) => cellLine c v))
  | setFormula id target formula => formulaLines id target formula
  | insertRows id at_ count =>
    [tableCall id "insert_rows"
      [countKeyword "at" at_, countKeyword "count" count]]
  | insertCols id at_ count =>
    [tableCall id "insert_cols"
      [countKeyword "at" at_, countKeyword "count" count]]
  | setColumnType id col type =>
    [tableCall id "set_column_type" [Number.decimal col, Script.quote type]]
  | script lines => lines

end GridScript.Command
