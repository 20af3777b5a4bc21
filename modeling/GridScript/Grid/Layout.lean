/-
Where a table lies and how wide its label bands are.
-/
import GridScript.Number.Double

namespace GridScript

/-- The rectangle of a table on its sheet, in points. -/
structure Rect where
  x : Double
  y : Double
  width : Double
  height : Double
  deriving DecidableEq

instance : Inhabited Rect := ⟨⟨.zero, .zero, .zero, .zero⟩⟩

/-- How many rows or columns of labels a table has on each side. -/
structure LabelBands where
  top : Nat
  left : Nat
  bottom : Nat
  right : Nat
  deriving DecidableEq

namespace LabelBands

/-- No labels. -/
def none : LabelBands := ⟨0, 0, 0, 0⟩

instance : Inhabited LabelBands := ⟨none⟩

/-- Has the table no labels? -/
def isNone (b : LabelBands) : Bool := b == none

end LabelBands

end GridScript
