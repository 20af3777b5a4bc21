/-
Running a part of a script. What is selected is given what it needs to run
by itself: the user's part if it lies below the marker, otherwise the
imports above it, and a project object unless one is created anyway.
-/
import GridScript.Script.Parts
import GridScript.Text.Utf8

namespace GridScript.Script

/-- The text before a byte range and the text in it; none if the range is
reversed, out of bounds or cuts a character. -/
def cutRange? (t : Text) (start stop : Nat) : Option (Text × Text) := do
  if stop < start then none
  else
    let (before, rest) ← Text.cutAtByte? start t
    let (selected, _) ← Text.cutAtByte? (stop - start) rest
    return (before, selected)

/-- The import lines of a text. -/
def importLines (t : Text) : Text :=
  Text.unlines ((Text.lines t).filter isImport)

/-- What a selection needs in front of it, given what stands before it. -/
def selectionHeader (script before : Text) : Text :=
  match cutAtMarker? script with
  | none => importLines before
  | some (user, m, _) =>
    if Text.byteLength user + Text.byteLength m ≤ Text.byteLength before then
      user
    else if Text.byteLength before ≤ Text.byteLength user then
      importLines before
    else importLines user

/-- A script that runs the selection; none if the range is no range of the
script or selects only blanks. -/
def selectionScript? (script : Text) (start stop : Nat) : Option Text := do
  let (before, selected) ← cutRange? script start stop
  if Text.allBlank selected then none
  else
    let header := Text.closed (selectionHeader script before)
    let initialized :=
      (Text.lines header ++ Text.lines selected).any isProjectInit
    let init := if initialized then [] else projectInit ++ ['\n']
    return Text.closed (header ++ init ++ selected)

end GridScript.Script
