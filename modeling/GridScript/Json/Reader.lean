/-
Reading JSON, strictly: one value with nothing after it but white space.
Raw control characters in strings, unknown escapes, leading zeros, and
commas before a closing bracket are refused.

Reading goes by a budget of steps that the length of the text bounds:
every second step consumes a character, so the budget of `read?` is never
what ends it.
-/
import GridScript.Json.Basic

namespace GridScript.Json

/-- The white space of JSON. -/
def isSpace (c : Char) : Bool :=
  c == ' ' || c == '\t' || c == '\n' || c == '\r'

/-- The text from its first character that is not white space. -/
def skipSpace (t : Text) : Text := t.dropWhile isSpace

-- ======================================================== strings

/-- One unit of a string: a character, or the number of a `\u` escape. -/
inductive StringUnit where
  | char (c : Char)
  | code (n : Nat)

/-- What a one-letter escape stands for. -/
def shortEscape? : Char → Option Char
  | '"' => some '"'
  | '\\' => some '\\'
  | '/' => some '/'
  | 'b' => some '\x08'
  | 'f' => some '\x0c'
  | 'n' => some '\n'
  | 'r' => some '\r'
  | 't' => some '\t'
  | _ => none

/-- The number of four hexadecimal digits. -/
def hex4? (a b c d : Char) : Option Nat := do
  let a ← Number.hexValue? a
  let b ← Number.hexValue? b
  let c ← Number.hexValue? c
  let d ← Number.hexValue? d
  return ((a * 16 + b) * 16 + c) * 16 + d

/-- The units of a string after its opening quote, and what follows its
closing one. -/
def readUnits? : Text → Option (List StringUnit × Text)
  | [] => none
  | '"' :: t => some ([], t)
  | '\\' :: 'u' :: a :: b :: c :: d :: t => do
    let n ← hex4? a b c d
    let (units, rest) ← readUnits? t
    return (.code n :: units, rest)
  | '\\' :: e :: t => do
    let c ← shortEscape? e
    let (units, rest) ← readUnits? t
    return (.char c :: units, rest)
  | c :: t =>
    if c = '\\' ∨ c.toNat < 0x20 then none
    else (readUnits? t).map fun (units, rest) => (.char c :: units, rest)

/-- Is this the first half of a surrogate pair? -/
def isHigh (n : Nat) : Bool := 0xD800 ≤ n && n ≤ 0xDBFF

/-- Is this the second half of a surrogate pair? -/
def isLow (n : Nat) : Bool := 0xDC00 ≤ n && n ≤ 0xDFFF

/-- The text of units: two escapes for the halves of a surrogate pair are
one character, and a half by itself is none. -/
def decodeUnits? : List StringUnit → Option Text
  | [] => some []
  | .char c :: us => (decodeUnits? us).map (c :: ·)
  | .code high :: .code low :: us =>
    if isHigh high && isLow low then
      (decodeUnits? us).map
        (Char.ofNat (0x10000 + (high - 0xD800) * 0x400 + (low - 0xDC00)) :: ·)
    else if isHigh high || isLow high then none
    else (decodeUnits? (.code low :: us)).map (Char.ofNat high :: ·)
  | .code n :: us =>
    if isHigh n || isLow n then none
    else (decodeUnits? us).map (Char.ofNat n :: ·)

-- ======================================================== numbers

/-- Digits, at least one, and what follows them. -/
def readDigits? (t : Text) : Option (Text × Text) :=
  let digits := t.takeWhile Char.isDigit
  if digits.isEmpty then none else some (digits, t.dropWhile Char.isDigit)

/-- The part of a number from its exponent mark on, if it has one. -/
def readExponent? : Text → Option (Text × Text)
  | [] => some ([], [])
  | e :: t =>
    if e = 'e' ∨ e = 'E' then
      match t with
      | s :: t' =>
        if s = '+' ∨ s = '-' then
          (readDigits? t').map fun (digits, rest) => (e :: s :: digits, rest)
        else (readDigits? t).map fun (digits, rest) => (e :: digits, rest)
      | [] => none
    else some ([], e :: t)

/-- The part of a number from its point on, if it has one. -/
def readFraction? : Text → Option (Text × Text)
  | '.' :: t => (readDigits? t).map fun (digits, rest) => ('.' :: digits, rest)
  | t => some ([], t)

/-- The digits before the point: a zero, or digits that do not begin with
one. -/
def readWhole? (t : Text) : Option (Text × Text) := do
  let (digits, rest) ← readDigits? t
  if digits.head? = some '0' ∧ 1 < digits.length then none
  else return (digits, rest)

/-- The spelling of a number without its sign, and what follows it. -/
def readUnsigned? (t : Text) : Option (Text × Text) := do
  let (whole, t) ← readWhole? t
  let (fraction, t) ← readFraction? t
  let (exponent, t) ← readExponent? t
  return (whole ++ fraction ++ exponent, t)

/-- The spelling of a number, and what follows it. -/
def readNumber? : Text → Option (Text × Text)
  | '-' :: t =>
      (readUnsigned? t).map fun (spelling, rest) => ('-' :: spelling, rest)
  | t => readUnsigned? t

-- ======================================================== values

/-- An object, unless the name of a member cannot be read. -/
def ofMembers (members : List (Option Text × Json)) : Json :=
  match members.mapM fun (name, j) => name.map (·, j) with
  | some members => .object members
  | none => .unreadable

/-- A string, unless it cannot be read. -/
def ofUnits (units : List StringUnit) : Json :=
  match decodeUnits? units with
  | some t => .text t
  | none => .unreadable

mutual

/-- A value and what follows it. -/
def readValue? : Nat → Text → Option (Json × Text)
  | 0, _ => none
  | budget + 1, t =>
    match skipSpace t with
    | [] => none
    | '[' :: t =>
      match skipSpace t with
      | ']' :: t => some (.array [], t)
      | t =>
          (readItems? budget t).map fun (items, rest) => (.array items, rest)
    | '{' :: t =>
      match skipSpace t with
      | '}' :: t => some (.object [], t)
      | t =>
          (readMembers? budget t).map fun (members, rest) =>
            (ofMembers members, rest)
    | '"' :: t => (readUnits? t).map fun (units, rest) => (ofUnits units, rest)
    | t =>
      match Text.afterStart? "null".toList t, Text.afterStart? "true".toList t,
          Text.afterStart? "false".toList t with
      | some rest, _, _ => some (.null, rest)
      | _, some rest, _ => some (.bool true, rest)
      | _, _, some rest => some (.bool false, rest)
      | none, none, none =>
          (readNumber? t).map fun (spelling, rest) => (.number spelling, rest)

/-- Items up to the closing bracket, and what follows it. -/
def readItems? : Nat → Text → Option (List Json × Text)
  | 0, _ => none
  | budget + 1, t => do
    let (j, t) ← readValue? budget t
    match skipSpace t with
    | ']' :: t => return ([j], t)
    | ',' :: t =>
      let (js, t) ← readItems? budget t
      return (j :: js, t)
    | _ => none

/-- Members up to the closing brace, and what follows it. -/
def readMembers? : Nat → Text → Option (List (Option Text × Json) × Text)
  | 0, _ => none
  | budget + 1, t =>
    match skipSpace t with
    | '"' :: t => do
      let (name, t) ← readUnits? t
      match skipSpace t with
      | ':' :: t =>
        let (j, t) ← readValue? budget t
        match skipSpace t with
        | '}' :: t => return ([(decodeUnits? name, j)], t)
        | ',' :: t =>
          let (ms, t) ← readMembers? budget t
          return ((decodeUnits? name, j) :: ms, t)
        | _ => none
      | _ => none
    | _ => none

end

/-- The value that a text is. -/
def read? (t : Text) : Option Json := do
  let (j, rest) ← readValue? (2 * t.length + 2) t
  if (skipSpace rest).isEmpty then return j else none

end GridScript.Json
