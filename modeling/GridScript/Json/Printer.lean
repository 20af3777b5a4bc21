/-
The text of a JSON value, on one line or over several. Spread out, each
item and member has a line of its own, two spaces deeper than what holds
it; an empty array or object stays on one line. Strings escape the quote,
the backslash and the control characters below the space, with the short
forms where there is one; every other character stands for itself.
-/
import GridScript.Json.Basic

namespace GridScript.Json

/-- A character inside a JSON string. -/
def escape (c : Char) : Text :=
  if c = '"' then "\\\"".toList
  else if c = '\\' then "\\\\".toList
  else if c = '\n' then "\\n".toList
  else if c = '\r' then "\\r".toList
  else if c = '\t' then "\\t".toList
  else if c = '\x08' then "\\b".toList
  else if c = '\x0c' then "\\f".toList
  else if c.toNat < 0x20 then "\\u".toList ++ Number.hexPadded 4 c.toNat
  else [c]

/-- A JSON string. -/
def quote (t : Text) : Text := '"' :: t.flatMap escape ++ ['"']

/-- The text of a value that has no parts. -/
def scalar : Json → Text
  | .bool true => "true".toList
  | .bool false => "false".toList
  | .number spelling => spelling
  | .text t => quote t
  | _ => "null".toList

-- ======================================================== on one line

mutual

/-- The value on one line, without spaces. -/
def compact : Json → Text
  | .array items => '[' :: compactItems items ++ [']']
  | .object members => '{' :: compactMembers members ++ ['}']
  | j => scalar j

/-- Items with commas between them. -/
def compactItems : List Json → Text
  | [] => []
  | [j] => compact j
  | j :: js => compact j ++ ',' :: compactItems js

/-- Members with commas between them. -/
def compactMembers : List (Text × Json) → Text
  | [] => []
  | [(name, j)] => quote name ++ ':' :: compact j
  | (name, j) :: ms =>
      quote name ++ ':' :: compact j ++ ',' :: compactMembers ms

end

-- ======================================================== spread out

/-- A new line at some depth. -/
def newline (level : Nat) : Text := '\n' :: List.replicate (2 * level) ' '

mutual

/-- The value over several lines, itself at some depth. -/
def spread (level : Nat) : Json → Text
  | .array [] => "[]".toList
  | .object [] => ['{', '}']
  | .array items =>
      '[' :: spreadItems (level + 1) items ++ newline level ++ [']']
  | .object members =>
      '{' :: spreadMembers (level + 1) members ++ newline level ++ ['}']
  | j => scalar j

/-- Items, each on its own line, with commas between them. -/
def spreadItems (level : Nat) : List Json → Text
  | [] => []
  | [j] => newline level ++ spread level j
  | j :: js => newline level ++ spread level j ++ ',' :: spreadItems level js

/-- Members, each on its own line, with commas between them. -/
def spreadMembers (level : Nat) : List (Text × Json) → Text
  | [] => []
  | [(name, j)] => newline level ++ quote name ++ ": ".toList ++ spread level j
  | (name, j) :: ms =>
    newline level ++ quote name ++ ": ".toList ++ spread level j
      ++ ',' :: spreadMembers level ms

end

/-- The value over several lines. -/
def pretty (j : Json) : Text := spread 0 j

end GridScript.Json
