/-
The history of a script: the lines of its log without the declarations of
local names. It is kept in a file beside the script, so that a script that
was damaged by hand can be made again.
-/
import GridScript.Json.Fields
import GridScript.Json.Printer
import GridScript.Json.Reader
import GridScript.Script.Parts

namespace GridScript

/-- The lines of a log. -/
structure History where
  commands : List Text
  deriving DecidableEq

namespace History

/-- The lines without the blank ones at the end. -/
def dropBlankEnd (ls : List Text) : List Text :=
  ls.foldr (fun l rest => if rest.isEmpty && Text.allBlank l then []
    else l :: rest) []

/-- The history of a generated part. -/
def ofGenerated (t : Text) : History :=
  ⟨dropBlankEnd (Text.lines (Script.withoutDeclarations t))⟩

/-- The history in a script; empty without a marker. -/
def ofScript (t : Text) : History := ofGenerated (Script.generatedPart t)

/-- Is nothing recorded? -/
def isEmpty (h : History) : Bool := h.commands.isEmpty

/-- The name of the member that holds the lines. -/
def commandsMember : Text := "commands".toList

/-- The history as JSON. -/
def toJson (h : History) : Json :=
  .object [(commandsMember, .ofTexts h.commands)]

/-- The text that is kept in a file, without its last line feed. -/
def text (h : History) : Text := h.toJson.pretty

/-- Reads a history; one that names no lines is empty. -/
def ofJson? (j : Json) : Option History := do
  match ← Json.fields? [commandsMember] false j with
  | [commands] =>
      return ⟨← Json.defaulted? [] (Json.asList? Json.asText?) commands⟩
  | _ => none

/-- Reads the text of a history. -/
def parse? (t : Text) : Option History := (Json.read? t).bind ofJson?

end History

end GridScript
