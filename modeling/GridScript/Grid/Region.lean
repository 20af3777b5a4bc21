/-
The five regions of a table: its body and a band of labels on each side.
They are addressed separately, each with rows and columns from zero.
-/
import GridScript.Text.Blank

namespace GridScript

/-- One of the separately addressed parts of a table. -/
inductive Region where
  | body
  | topLabels
  | bottomLabels
  | leftLabels
  | rightLabels
  deriving DecidableEq

namespace Region

/-- Every region, in order. -/
def all : List Region :=
  [body, topLabels, bottomLabels, leftLabels, rightLabels]

/-- The place of a region in the order. -/
def index : Region → Nat
  | body => 0
  | topLabels => 1
  | bottomLabels => 2
  | leftLabels => 3
  | rightLabels => 4

/-- The name in addresses and scripts. -/
def name : Region → Text
  | body => "body".toList
  | topLabels => "top_labels".toList
  | bottomLabels => "bottom_labels".toList
  | leftLabels => "left_labels".toList
  | rightLabels => "right_labels".toList

/-- The region of a name. Blanks around it do not count and a dash may
stand for an underscore. -/
def ofName? (t : Text) : Option Region :=
  let wanted := Text.swap '-' '_' (Text.trim t)
  all.find? fun r => r.name == wanted

/-- The side of a label band. -/
def band? : Region → Option Text
  | body => none
  | topLabels => some "top".toList
  | bottomLabels => some "bottom".toList
  | leftLabels => some "left".toList
  | rightLabels => some "right".toList

/-- Is the region a label band? -/
def isLabel (r : Region) : Bool := r != body

/-- Regions at the same place are the same. -/
theorem index_injective {a b : Region} (h : a.index = b.index) : a = b := by
  cases a <;> cases b <;> simp_all [index]

end Region

end GridScript
