/-
The smallest parts of a settings file, which is written in TOML: blanks and
comments, strings of four kinds, and keys. Every reader gives what it read
and the text after it.
-/
import GridScript.Number.Natural

namespace GridScript.Settings

-- ======================================================== blanks

/-- A space or a tab. -/
def isSpace (c : Char) : Bool := c == ' ' || c == '\t'

/-- Can the character stand in a comment or a string? Of the characters
that control a terminal only the tab can. -/
def isPlainChar (c : Char) : Bool :=
  c == '\t' || (decide (0x20 ≤ c.toNat) && c.toNat != 0x7F)

/-- The text after spaces and tabs. -/
def skipSpace (t : Text) : Text := t.dropWhile isSpace

/-- The text after the end of a line, which comes next. -/
def newline? : Text → Option Text
  | '\n' :: t => some t
  | '\r' :: '\n' :: t => some t
  | _ => none

/-- The text after blanks, line ends and comments; `inside` a comment. -/
def skipFiller (inside : Bool) : Text → Text
  | [] => []
  | '\n' :: t => skipFiller false t
  | '\r' :: '\n' :: t => skipFiller false t
  | c :: t =>
    if inside && isPlainChar c then skipFiller true t
    else if !inside && isSpace c then skipFiller false t
    else if !inside && c == '#' then skipFiller true t
    else c :: t

/-- The text after what may follow on a line: spaces, a comment, and the
end of the line or of the text. -/
def lineEnd? (t : Text) : Option Text :=
  let t := skipSpace t
  let t := if t.head? = some '#' then t.dropWhile isPlainChar else t
  if t.isEmpty then some [] else newline? t

-- ======================================================== escapes

/-- What a one-letter escape stands for. -/
def shortEscape? : Char → Option Char
  | 'b' => some '\x08'
  | 't' => some '\t'
  | 'n' => some '\n'
  | 'f' => some '\x0c'
  | 'r' => some '\r'
  | '"' => some '"'
  | '\\' => some '\\'
  | _ => none

/-- The character of hexadecimal digits, unless there is none. -/
def codeChar? (digits : Text) : Option Char := do
  let n ← digits.foldlM (fun n c => (Number.hexValue? c).map (16 * n + ·)) 0
  if n.isValidChar then some (Char.ofNat n) else none

-- ======================================================== strings

/-- A string on one line, after its opening quotation mark. -/
def basic? : Text → Option (Text × Text)
  | '"' :: t => some ([], t)
  | '\\' :: 'u' :: a :: b :: c :: d :: t => do
    let char ← codeChar? [a, b, c, d]
    let (content, rest) ← basic? t
    return (char :: content, rest)
  | '\\' :: 'U' :: a :: b :: c :: d :: e :: f :: g :: h :: t => do
    let char ← codeChar? [a, b, c, d, e, f, g, h]
    let (content, rest) ← basic? t
    return (char :: content, rest)
  | '\\' :: e :: t => do
    let char ← shortEscape? e
    let (content, rest) ← basic? t
    return (char :: content, rest)
  | c :: t =>
    if c = '\\' ∨ !isPlainChar c then none
    else (basic? t).map fun (content, rest) => (c :: content, rest)
  | [] => none

/-- A string on one line without escapes, after its opening apostrophe. -/
def literal? : Text → Option (Text × Text)
  | [] => none
  | c :: t =>
    if c = '\'' then some ([], t)
    else if !isPlainChar c then none
    else (literal? t).map fun (content, rest) => (c :: content, rest)

/-- The content and the rest where three quotes close a string. One or two
more quotes right before them are content. -/
def closing? (quote : Char) (t : Text) : Option (Text × Text) :=
  let run := t.takeWhile (· == quote)
  if run.length < 3 then none
  else
    let extra := min (run.length - 3) 2
    some (List.replicate extra quote, t.drop (extra + 3))

/-- Does a line end here, after spaces at most? -/
def endsLine (t : Text) : Bool := (newline? (skipSpace t)).isSome

/-- A string over several lines, after its opening. While `trimming`, blanks
and line ends are passed over. -/
def multiBasic? (trimming : Bool) : Text → Option (Text × Text)
  | [] => none
  | '\r' :: '\n' :: t =>
    if trimming then multiBasic? true t
    else
      (multiBasic? false t).map fun (content, rest) => ('\n' :: content, rest)
  | '\\' :: 'u' :: a :: b :: c :: d :: t => do
    let char ← codeChar? [a, b, c, d]
    let (content, rest) ← multiBasic? false t
    return (char :: content, rest)
  | '\\' :: 'U' :: a :: b :: c :: d :: e :: f :: g :: h :: t => do
    let char ← codeChar? [a, b, c, d, e, f, g, h]
    let (content, rest) ← multiBasic? false t
    return (char :: content, rest)
  | '\\' :: e :: t =>
    if endsLine (e :: t) then multiBasic? true (e :: t)
    else do
      let char ← shortEscape? e
      let (content, rest) ← multiBasic? false t
      return (char :: content, rest)
  | c :: t =>
    if trimming && (isSpace c || c == '\n') then multiBasic? true t
    else
      match closing? '"' (c :: t) with
      | some closed => some closed
      | none =>
        if c = '\\' ∨ !(c == '\n' || isPlainChar c) then none
        else
          (multiBasic? false t).map fun (content, rest) => (c :: content, rest)

/-- A string over several lines without escapes, after its opening. -/
def multiLiteral? : Text → Option (Text × Text)
  | [] => none
  | '\r' :: '\n' :: t =>
      (multiLiteral? t).map fun (content, rest) => ('\n' :: content, rest)
  | c :: t =>
    match closing? '\'' (c :: t) with
    | some closed => some closed
    | none =>
      if !(c == '\n' || isPlainChar c) then none
      else (multiLiteral? t).map fun (content, rest) => (c :: content, rest)

/-- The text without a line end at its beginning. -/
def dropNewline (t : Text) : Text := (newline? t).getD t

/-- A string of any kind. -/
def string? : Text → Option (Text × Text)
  | '"' :: '"' :: '"' :: t => multiBasic? false (dropNewline t)
  | '\'' :: '\'' :: '\'' :: t => multiLiteral? (dropNewline t)
  | '"' :: t => basic? t
  | '\'' :: t => literal? t
  | _ => none

-- ======================================================== keys

/-- Can the character stand in a key that is not quoted? -/
def isKeyChar (c : Char) : Bool := c.isAlphanum || c == '_' || c == '-'

/-- One part of a key. -/
def keyPart? : Text → Option (Text × Text)
  | '"' :: t => basic? t
  | '\'' :: t => literal? t
  | t =>
    let word := t.takeWhile isKeyChar
    if word.isEmpty then none else some (word, t.drop word.length)

/-- The parts of a key and the text after it and after spaces. The budget
bounds the number of parts. -/
def keyParts? : Nat → Text → Option (List Text × Text)
  | 0, _ => none
  | budget + 1, t => do
    let (part, rest) ← keyPart? t
    match skipSpace rest with
    | '.' :: rest => do
      let (parts, rest) ← keyParts? budget (skipSpace rest)
      return (part :: parts, rest)
    | rest => return ([part], rest)

/-- How deep values may be nested, and how many parts a key may have. -/
def depthLimit : Nat := 79

/-- A key with points between its parts. -/
def key? (t : Text) : Option (List Text × Text) := keyParts? depthLimit t

end GridScript.Settings
