/-
What a cell can hold. An empty value is a value like any other when it is
written to a cell, and clears the cell; a table stores none.
-/
import GridScript.Number.Notation
import GridScript.Value.Date

namespace GridScript

/-- The content of a cell. -/
inductive Value where
  | text (t : Text)
  | number (x : Double)
  | boolean (b : Bool)
  | date (d : Date)
  /-- A time of day, in seconds since midnight; whole days do not show. -/
  | time (seconds : Nat)
  | empty
  deriving DecidableEq

namespace Value

instance : Inhabited Value := ⟨empty⟩

/-- Is there nothing in the cell? -/
def isEmpty : Value → Bool
  | empty => true
  | _ => false

/-- Does the value fit a slot of an array of numbers? -/
def isNumericOrEmpty : Value → Bool
  | number _ => true
  | empty => true
  | _ => false

/-- The value as a reader of the table sees it. -/
def display : Value → Text
  | text t => t
  | number x => Number.plain x
  | boolean true => "TRUE".toList
  | boolean false => "FALSE".toList
  | date d => d.text
  | time s => TimeOfDay.text s
  | empty => []

end Value

end GridScript
