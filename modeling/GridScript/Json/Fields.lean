/-
Reading records out of JSON. A record is an object with its fields by
name, in any order and each at most once, or an array of its fields in
their declared order, from which fields at the end may be missing. An
object's further members are passed over, or refused by a record that
says so.
-/
import GridScript.Json.Scaling

namespace GridScript.Json

-- ======================================================== single values

/-- A text. -/
def asText? : Json → Option Text
  | .text t => some t
  | _ => none

/-- A truth value. -/
def asBool? : Json → Option Bool
  | .bool b => some b
  | _ => none

/-- A natural number below 2^64, spelled without a point or an exponent. -/
def asWord? : Json → Option Nat
  | .number spelling => toWord? spelling
  | _ => none

/-- A double. -/
def asDouble? : Json → Option Double
  | .number spelling => toDouble? spelling
  | _ => none

/-- The items of an array, each read by `f`. -/
def asList? {α : Type} (f : Json → Option α) : Json → Option (List α)
  | .array items => items.mapM f
  | _ => none

/-- The members of an object, each read by `f`. -/
def asMembers? {α : Type} (f : Json → Option α) :
    Json → Option (List (Text × α))
  | .object members => members.mapM fun (name, j) => (f j).map (name, ·)
  | _ => none

/-- A value or `null`. -/
def asOptional? {α : Type} (f : Json → Option α) : Json → Option (Option α)
  | .null => some none
  | j => (f j).map some

-- ======================================================== records

/-- The fields of a record: for each declared one its value, if given. -/
abbrev Fields := List (Option Json)

/-- Puts a member in its field, which must still be vacant. -/
def place? (name : Text) (j : Json) : List Text → Fields → Option Fields
  | n :: ns, slot :: slots =>
    if n = name then (if slot.isSome then none else some (some j :: slots))
    else (place? name j ns slots).map (slot :: ·)
  | _, _ => none

/-- The fields that members fill. -/
def fill? (names : List Text) (strict : Bool) :
    List (Text × Json) → Fields → Option Fields
  | [], slots => some slots
  | (name, j) :: ms, slots =>
    if names.contains name then
      (place? name j names slots).bind (fill? names strict ms)
    else if strict then none
    else fill? names strict ms slots

/-- The fields of a record with these names. A strict record refuses
members it does not declare. -/
def fields? (names : List Text) (strict : Bool) : Json → Option Fields
  | .object members => fill? names strict members (names.map fun _ => none)
  | .array items =>
    if items.length ≤ names.length then
      some
        (items.map some ++ List.replicate (names.length - items.length) none)
    else none
  | _ => none

/-- A field that must be given. -/
def required? {α : Type} (f : Json → Option α) (slot : Option Json) :
    Option α := slot.bind f

/-- A field that has a value of its own when it is not given. -/
def defaulted? {α : Type} (missing : α) (f : Json → Option α) :
    Option Json → Option α
  | none => some missing
  | some j => f j

-- ======================================================== whole values

mutual

/-- Can every part of the value be read? -/
def isReadable : Json → Bool
  | .unreadable => false
  | .number spelling => (toDouble? spelling).isSome
  | .array items => areReadable items
  | .object members => membersReadable members
  | _ => true

/-- Can every part of every item be read? -/
def areReadable : List Json → Bool
  | [] => true
  | j :: js => isReadable j && areReadable js

/-- Can every part of every member be read? -/
def membersReadable : List (Text × Json) → Bool
  | [] => true
  | (_, j) :: ms => isReadable j && membersReadable ms

end

/-- How many brackets may stand around a value that is looked at more than
once. -/
def depthLimit : Nat := 127

/-- Can the value be kept to be looked at more than once? What is kept has
to be readable in all its parts and, with the brackets around it, not too
deep. -/
def isKept (outer : Nat) (j : Json) : Bool :=
  isReadable j && decide (j.depth + outer ≤ depthLimit)

end GridScript.Json
