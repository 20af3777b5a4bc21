/-
The names that scripts are written in: the project object, its methods,
the blocks that open a table, and the local name that stands for a table.
Their spelling is fixed by the module that runs the scripts, and this is
where it is written down.
-/
import GridScript.Grid.Region
import GridScript.Script.Quoted

namespace GridScript.Script

/-- The project object. -/
def projectName : Text := "proj".toList

/-- The constructor of the project object. -/
def projectConstructor : Text := "Project".toList

/-- The method that looks a table up by its identifier. -/
def lookupMethod : Text := "table".toList

/-- The methods that create a table. -/
def creationMethods : List Text :=
  ["add_table".toList, "add_summary_table".toList]

/-- The function that opens a table's body. -/
def bodyContext : Text := "table_context".toList

/-- The function that opens a label band of a table. -/
def labelContext : Text := "label_context".toList

/-- The module that a script's helpers come from, unless one is chosen. -/
def defaultModule : Text := "sheetscript_api".toList

/-- What one level of indentation is written as. -/
def indent : Text := "    ".toList

-- ======================================================== local names

/-- The words that cannot be local names. -/
def reservedWords : List Text :=
  ["False", "None", "True", "and", "as", "assert", "async", "await", "break",
   "class", "continue", "def", "del", "elif", "else", "except", "finally",
   "for", "from", "global", "if",
   "import", "in", "is", "lambda", "nonlocal", "not", "or", "pass", "raise",
   "return", "try",
   "while", "with", "yield"].map String.toList

/-- Replaces what no name can hold. -/
def nameChar (c : Char) : Char := if c.isAlphanum || c == '_' then c else '_'

/-- Does the text begin with a digit, or with nothing? -/
def needsStart (t : Text) : Bool :=
  match t with
  | [] => true
  | c :: _ => c.isDigit

/-- The local name that stands for a table. An identifier that is a name
already is used as it is; two identifiers may share a name. -/
def tableAlias (id : Text) : Text :=
  let name := id.map nameChar
  let name := if needsStart name then 't' :: '_' :: name else name
  if reservedWords.contains name then name ++ ['_'] else name

-- ======================================================== phrases

/-- The expression that looks a table up. -/
def lookupCall (id : Text) : Text :=
  projectName ++ '.' :: lookupMethod ++ '(' :: quote id ++ [')']

/-- The line that binds a table's local name. -/
def bindingLine (id : Text) : Text :=
  tableAlias id ++ " = ".toList ++ lookupCall id

/-- The line that opens a region of a table. -/
def headerLine (id : Text) (region : Region) : Text :=
  if region.isLabel then
    "with ".toList ++ labelContext ++ '(' :: tableAlias id ++ ", ".toList
      ++ quote region.name ++
      "):".toList
  else "with ".toList ++ bodyContext ++ '(' :: tableAlias id ++ "):".toList

/-- The line that creates the project object. -/
def projectInit : Text :=
  projectName ++ " = ".toList ++ projectConstructor ++ "()".toList

end GridScript.Script
