/-
JSON values. A number is kept as it is spelled, because the same spelling
is an integer to one reader and a double to another; an object keeps its
members in order, repeats included, because a record refuses a repeat
where a map takes the last one.

A text with an escape for half of a surrogate pair is legal JSON that no
text can hold. It may be skipped but not read, and so may a member whose
name is such a text: both are `unreadable`.
-/
import GridScript.Number.Notation

namespace GridScript

/-- A JSON value. -/
inductive Json where
  | null
  | bool (b : Bool)
  | number (spelling : Text)
  | text (t : Text)
  | unreadable
  | array (items : List Json)
  | object (members : List (Text × Json))

namespace Json

instance : Inhabited Json := ⟨null⟩

/-- A natural number. -/
def ofNat (n : Nat) : Json := number (Number.decimal n)

/-- A double; one that is not finite is `null`. -/
def ofDouble (x : Double) : Json := number (Number.json x)

/-- A list of texts. -/
def ofTexts (ts : List Text) : Json := array (ts.map text)

mutual

/-- How many brackets stand around the innermost value. -/
def depth : Json → Nat
  | array items => depthOfItems items + 1
  | object members => depthOfMembers members + 1
  | _ => 0

/-- The depth of the deepest item. -/
def depthOfItems : List Json → Nat
  | [] => 0
  | j :: js => max (depth j) (depthOfItems js)

/-- The depth of the deepest member. -/
def depthOfMembers : List (Text × Json) → Nat
  | [] => 0
  | (_, j) :: ms => max (depth j) (depthOfMembers ms)

end

end Json

end GridScript
