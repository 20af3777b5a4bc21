/-
A project: sheets in order, each with its tables in the order of their
creation. The project is the editor's idea of what the script builds. It
follows every command at once, and a finished run replaces it.

Sheets and tables are named by identifiers. What a command finds wrong
with one is a `ProjectError`.
-/
import GridScript.Project.Table

namespace GridScript

-- ======================================================== errors

/-- Why a change to a project is refused. -/
inductive ProjectError where
  | unknownSheet (id : Text)
  | unknownTable (id : Text)
  /-- The identifier of a new sheet or table is taken. -/
  | duplicateId (id : Text)
  deriving DecidableEq

/-- The wording of a refusal. -/
def ProjectError.message : ProjectError → Text
  | unknownSheet id => "Unknown sheet: ".toList ++ id
  | unknownTable id => "Unknown table: ".toList ++ id
  | duplicateId id => "Duplicate id: ".toList ++ id

-- ======================================================== projects

/-- A sheet. -/
structure Sheet where
  id : Text
  name : Text
  /-- The tables, in the order of their creation. -/
  tableIds : List Text
  deriving DecidableEq

/-- A project. -/
structure Project where
  sheets : List Sheet
  /-- The tables by their identifiers. -/
  tables : SortedMap Text Table
  deriving DecidableEq

namespace Project

/-- The project without sheets. -/
def empty : Project := ⟨[], .empty⟩

instance : Inhabited Project := ⟨empty⟩

/-- The first sheet with an identifier. -/
def sheet? (p : Project) (id : Text) : Option Sheet :=
  p.sheets.find? fun s => s.id == id

/-- The table with an identifier. -/
def table? (p : Project) (id : Text) : Option Table := p.tables.get? id

/-- The tables in the order of the sheets that list them. -/
def listedTables (p : Project) : List Table :=
  p.sheets.flatMap fun s => s.tableIds.filterMap p.table?

-- ======================================================== changes

/-- Changes the first sheet with an identifier. -/
def changeFirst (id : Text) (f : Sheet → Sheet) : List Sheet → List Sheet
  | [] => []
  | s :: ss => if s.id = id then f s :: ss else s :: changeFirst id f ss

/-- Changes a sheet. -/
def changeSheet (p : Project) (id : Text) (f : Sheet → Sheet) :
    Except ProjectError Project :=
  match p.sheet? id with
  | none => .error (.unknownSheet id)
  | some _ => .ok { p with sheets := changeFirst id f p.sheets }

/-- Changes a table. -/
def changeTable (p : Project) (id : Text) (f : Table → Table) :
    Except ProjectError Project :=
  match p.table? id with
  | none => .error (.unknownTable id)
  | some t => .ok { p with tables := p.tables.insert id (f t) }

/-- Adds a sheet at the end. -/
def addSheet (p : Project) (id name : Text) : Except ProjectError Project :=
  match p.sheet? id with
  | some _ => .error (.duplicateId id)
  | none => .ok { p with sheets := p.sheets ++ [⟨id, name, []⟩] }

/-- Adds a table at the end of its sheet. A taken identifier is noticed
before a missing sheet. -/
def addTable (p : Project) (t : Table) : Except ProjectError Project :=
  match p.table? t.id with
  | some _ => .error (.duplicateId t.id)
  | none => do
    let p ← p.changeSheet t.sheetId fun s => { s with
        tableIds := s.tableIds ++ [t.id] }
    return { p with tables := p.tables.insert t.id t }

end Project

end GridScript
