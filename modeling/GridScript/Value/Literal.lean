/-
Values and records as expressions of a script. Every value has an
expression, and no two values share one, up to the sign of zero, the
choice of a not-a-number and whole days in a time.
-/
import GridScript.Grid.Layout
import GridScript.Script.Quoted
import GridScript.Value.Basic

namespace GridScript

namespace Literal

/-- A call with its arguments. -/
def call (function : String) (args : List Text) : Text :=
  function.toList ++ '(' :: Text.joinWith ", ".toList args ++ [')']

/-- A bracketed list. -/
def list (items : List Text) : Text :=
  '[' :: Text.joinWith ", ".toList items ++ [']']

/-- A number. Zero has no sign, and what plain notation cannot write is
made from its name. -/
def number : Double → Text
  | .nan => "float('nan')".toList
  | .infinite false => "float('inf')".toList
  | .infinite true => "-float('inf')".toList
  | .finite s rank =>
      if rank.val = 0 then ['0'] else Number.plain (.finite s rank)

end Literal

/-- The expression of a value. -/
def Value.literal : Value → Text
  | text t => Script.quote t
  | number x => Literal.number x
  | boolean true => "True".toList
  | boolean false => "False".toList
  | date d => Literal.call "date_value" [Script.quote d.text]
  | time s => Literal.call "time_value" [Script.quote (TimeOfDay.text s)]
  | empty => "None".toList

namespace Literal

/-- A list of values. -/
def row (values : List Value) : Text := list (values.map Value.literal)

/-- A list of texts. -/
def texts (items : List Text) : Text := list (items.map Script.quote)

/-- A list of rows. -/
def grid (rows : List (List Value)) : Text := list (rows.map row)

/-- Entries in the order of their keys, by code point; repeats keep theirs. -/
def sortedEntries {ν : Type} (entries : List (Text × ν)) : List (Text × ν) :=
  entries.mergeSort fun a b => compare a.1 b.1 != .gt

/-- A dictionary, its keys in order. -/
def dict (entries : List (Text × Value)) : Text :=
  '{' :: Text.joinWith ", ".toList
    ((sortedEntries entries).map fun (key, v) =>
      Script.quote key ++ ": ".toList ++ v.literal) ++ ['}']

/-- A rectangle. -/
def rect (r : Rect) : Text :=
  call "Rect" [number r.x, number r.y, number r.width, number r.height]

/-- The four counts of label bands as keyword arguments. -/
def bandArguments (b : LabelBands) : List Text :=
  ["top=".toList ++ Number.decimal b.top,
   "left=".toList ++ Number.decimal b.left, "bottom=".toList
     ++ Number.decimal b.bottom, "right=".toList ++ Number.decimal b.right]

/-- Label bands. -/
def bands (b : LabelBands) : Text := call "dict" (bandArguments b)

end Literal

end GridScript
