/-
Values in JSON: an object with the kind of the value under `type` and,
unless it is empty, its content under `value`. Dates and times are texts
there. A value is read in two looks, first for its kind and then for its
content, so all of it has to be readable; an array of the kind and the
content is read as well.
-/
import GridScript.Json.Fields
import GridScript.Value.Basic

namespace GridScript.Value

/-- The name of the member that holds the kind. -/
def kindMember : Text := "type".toList

/-- The name of the member that holds the content. -/
def contentMember : Text := "value".toList

/-- A value with its kind and content. -/
def tagged (kind : String) (content : Json) : Json :=
  .object [(kindMember, .text kind.toList), (contentMember, content)]

/-- The JSON of a value. -/
def toJson : Value → Json
  | number x => tagged "number" (.ofDouble x)
  | text t => tagged "string" (.text t)
  | boolean b => tagged "bool" (.bool b)
  | date d => tagged "date" (.text d.text)
  | time s => tagged "time" (.text (TimeOfDay.text s))
  | empty => .object [(kindMember, .text "empty".toList)]

/-- The value of a kind other than empty, from its content. -/
def ofContent? (kind : Text) (content : Json) : Option Value :=
  if kind = "number".toList then content.asDouble?.map number
  else if kind = "string".toList then content.asText?.map text
  else if kind = "bool".toList then content.asBool?.map boolean
  else if kind = "date".toList then (content.asText?.bind Date.parse?).map date
  else if kind = "time".toList then
    (content.asText?.bind TimeOfDay.parse?).map time
  else none

/-- The kind among the members of an object, given once, and the others. -/
def takeKind? (members : List (Text × Json)) :
    Option (Text × List (Text × Json)) :=
  match members.partition fun (name, _) => name == kindMember with
  | ([(_, kind)], others) => kind.asText?.map (·, others)
  | _ => none

/-- Reads a value that stands inside `outer` brackets. -/
def ofJson? (outer : Nat) (j : Json) : Option Value :=
  if !j.isKept outer then none
  else
    match j with
    | .object members => do
      let (kind, others) ← takeKind? members
      if kind = "empty".toList then return empty
      else
        let fields ← Json.fields? [contentMember] false (.object others)
        let content ← fields.head?.join
        ofContent? kind content
    | .array [kind] => do
      let kind ← kind.asText?
      if kind = "empty".toList then return empty else none
    | .array [kind, content] => do
      let kind ← kind.asText?
      ofContent? kind content
    | _ => none

end GridScript.Value
