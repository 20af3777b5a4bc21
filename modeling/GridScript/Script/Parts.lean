/-
The two parts of a script. Everything above the marker line belongs to the
user and is never touched; everything below it is generated from the
command log and made anew on every edit. A script without a marker is all
the user's.
-/
import GridScript.Script.Line

namespace GridScript.Script

/-- The line between the parts. -/
def marker : Text :=
  "# --- sheetscript generated log (rebuilt on every edit) ---".toList

/-- Is this line, with its line feed, the marker? Blanks at its end do not
count. -/
def isMarker (piece : Text) : Bool :=
  Text.trimEnd (Text.dropLast '\n' piece) == marker

/-- The text before the first marker line, that line, and the text after
it. -/
def cutAtMarker? (t : Text) : Option (Text × Text × Text) :=
  let ps := Text.pieces t
  match ps.dropWhile fun p => !isMarker p with
  | [] => none
  | m :: after =>
      some ((ps.takeWhile fun p => !isMarker p).flatten, m, after.flatten)

/-- The user's part. -/
def userPart (t : Text) : Text :=
  match cutAtMarker? t with
  | some (before, _, _) => before
  | none => t

/-- The script with its generated part replaced. -/
def compose (script generated : Text) : Text :=
  if script.isEmpty && generated.isEmpty then []
  else Text.closed (userPart script) ++ marker ++ '\n' :: Text.closed generated

-- ======================================================== declarations

/-- Does the line, with its terminator, declare a local name? -/
def isDeclarationPiece (piece : Text) : Bool :=
  isDeclaration
    ((piece.reverse.dropWhile fun c => c == '\n' || c == '\r').reverse)

/-- The text without the lines that declare local names. Those are made
anew with the rest. -/
def withoutDeclarations (t : Text) : Text :=
  ((Text.pieces t).filter fun p => !isDeclarationPiece p).flatten

/-- The generated part without declarations; empty without a marker. -/
def generatedPart (t : Text) : Text :=
  match cutAtMarker? t with
  | some (_, _, after) => withoutDeclarations after
  | none => []

-- ======================================================== new scripts

/-- The user's part of a new script. -/
def preamble (helperModule : Text) : Text :=
  "import numpy as np\nfrom ".toList ++ helperModule ++ " import *\n\n".toList
    ++ projectInit ++
    ['\n']

/-- A new script, with nothing generated. -/
def newScript (helperModule : Text) : Text :=
  compose (preamble helperModule) []

end GridScript.Script
