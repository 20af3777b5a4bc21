/-
Assignments on one line, and the right-hand sides that are literals. A
statement that assigns a literal says all there is to say about its cell;
it can be moved to where its table begins without changing what it means.

The equals sign of an assignment stands outside brackets and string
literals, alone, and after nothing that would make it an augmented
assignment or a comparison.
-/
import GridScript.Number.Reading
import GridScript.Script.Token
import GridScript.Text.Blank

namespace GridScript.Script

/-- Does the character make another operator of an equals sign after it? -/
def changesEquals (c : Char) : Bool :=
  ['=', '!', '<', '>', '+', '-', '*', '/', '%', '&', '|', '^', '@',
    ':'].contains c

/-- The bracket depth after a character. -/
def depthAfter (depth : Nat) (c : Char) : Nat :=
  if c = '(' ∨ c = '[' ∨ c = '{' then depth + 1
  else if c = ')' ∨ c = ']' ∨ c = '}' then depth - 1
  else depth

/-- Puts a token's text in front of the first of two parts. -/
def before (t : Text) : Text × Text → Text × Text
  | (lhs, rhs) => (t ++ lhs, rhs)

/-- The texts before and after the equals sign that assigns, with the
bracket depth and the last character so far. A quote that is never closed
hides the rest of the line. -/
def cutAtAssign? (depth : Nat) (last : Option Char) :
    List Token → Option (Text × Text)
  | [] => none
  | .word w :: ts => (cutAtAssign? depth w.getLast? ts).map (before w)
  | .quoted spelling _ :: ts =>
      (cutAtAssign? depth spelling.getLast? ts).map (before spelling)
  | .mark c :: ts =>
    if isQuote c then none
    else if c = '=' ∧ depth = 0 then
      if (last.map changesEquals).getD false
          || ts.head? == some (.mark '=') then none
      else some ([], sourceOf ts)
    else (cutAtAssign? (depthAfter depth c) (some c) ts).map (before [c])

/-- Can the text be assigned to: a name, or names with points between? -/
def isTarget (t : Text) : Bool :=
  !t.isEmpty && t.all fun c => Text.isWordChar c || c == '.'

/-- The target and the right-hand side of an assignment. -/
def assignment? (line : Text) : Option (Text × Text) := do
  let (lhs, rhs) ← cutAtAssign? 0 none (tokens line)
  let lhs := Text.trim lhs
  let rhs := Text.trim rhs
  if isTarget lhs && !rhs.isEmpty then return (lhs, rhs) else none

-- ======================================================== literals

/-- Is the text one string literal with no quote inside, escaped or not? -/
def isPlainString : Text → Bool
  | [] => false
  | q :: t =>
    match Text.beforeLast? q t with
    | none => false
    | some inner =>
        isQuote q && !inner.any isQuote && inner.getLast? != some '\\'

/-- Is the text a number, a constant or a plain string? -/
def isLiteral (t : Text) : Bool :=
  let t := Text.trim t
  Number.isNumeral t || t == "None".toList || t == "True".toList
    || t == "False".toList ||
    isPlainString t

end GridScript.Script
