/-
String literals of a script. The writer is strict: single quotes, and an
escape for the backslash, the quote and every control byte, so that a
literal never holds a line break. The reader takes what people write as
well: either quote, and an escape it does not know is kept as it stands.

`readQuoted?` of `quote s` gives `s` back, whatever follows; the lines of
a script can be taken apart again for that reason.
-/
import GridScript.Number.Natural

namespace GridScript.Script

-- ======================================================== writing

/-- A character inside a literal. -/
def escape (c : Char) : Text :=
  if c = '\\' then ['\\', '\\']
  else if c = '\'' then ['\\', '\'']
  else if c = '\n' then ['\\', 'n']
  else if c = '\r' then ['\\', 'r']
  else if c = '\t' then ['\\', 't']
  else if c.toNat < 0x20 ∨ c.toNat = 0x7F then
    '\\' :: 'x' :: Number.hexPadded 2 c.toNat
  else [c]

/-- The literal of a text. -/
def quote (t : Text) : Text := '\'' :: t.flatMap escape ++ ['\'']

-- ======================================================== reading

/-- Is this one of the two quotes? -/
def isQuote (c : Char) : Bool := c == '\'' || c == '"'

/-- The character of two hexadecimal digits, of which the first may be a
plus sign. -/
def hexPair? (a b : Char) : Option Char := do
  let high ← if a = '+' then some 0 else Number.hexValue? a
  let low ← Number.hexValue? b
  return Char.ofNat (high * 16 + low)

/-- The character of a one-letter escape. -/
def letterEscape? (c : Char) : Option Char :=
  if c = 'n' then some '\n'
  else if c = 'r' then some '\r'
  else if c = 't' then some '\t'
  else if c = '\\' ∨ isQuote c then some c
  else none

/-- A literal that was read: as it is spelled after its opening quote, as
it reads, and what follows it. -/
structure QuotedRest where
  spelling : Text
  text : Text
  rest : Text

/-- Puts characters in front of what was read. -/
def QuotedRest.prepend (spelled read : Text) (q : QuotedRest) : QuotedRest :=
  ⟨spelled ++ q.spelling, read ++ q.text, q.rest⟩

/-- Reads a literal after its opening quote up to the same quote. Fails if
the text ends first. -/
def readBody? (q : Char) : Text → Option QuotedRest
  | [] => none
  | '\\' :: 'x' :: a :: b :: t =>
    match hexPair? a b with
    | some c => (readBody? q t).map (.prepend ['\\', 'x', a, b] [c])
    | none =>
        (readBody? q (a :: b :: t)).map (.prepend ['\\', 'x'] ['\\', 'x'])
  | '\\' :: e :: t =>
    match letterEscape? e with
    | some c => (readBody? q t).map (.prepend ['\\', e] [c])
    | none => (readBody? q t).map (.prepend ['\\', e] ['\\', e])
  | c :: t =>
    if c = q then some ⟨[c], [], t⟩
    else if c = '\\' then none
    else (readBody? q t).map (.prepend [c] [c])

/-- A literal that was read is spelled by the text it was read from. -/
theorem spelling_readBody? {q : Char} {t : Text} {r : QuotedRest}
    (h : readBody? q t = some r) :
    r.spelling ++ r.rest = t := by
  fun_induction readBody? q t generalizing r with
  | case1 => simp at h
  | case2 a b t c hc ih =>
    obtain ⟨r', hr', rfl⟩ := Option.map_eq_some_iff.1 h
    simp [QuotedRest.prepend, ih hr']
  | case3 a b t hc ih =>
    obtain ⟨r', hr', rfl⟩ := Option.map_eq_some_iff.1 h
    simp [QuotedRest.prepend, ih hr']
  | case4 e t _ c hc ih =>
    obtain ⟨r', hr', rfl⟩ := Option.map_eq_some_iff.1 h
    simp [QuotedRest.prepend, ih hr']
  | case5 e t _ hc ih =>
    obtain ⟨r', hr', rfl⟩ := Option.map_eq_some_iff.1 h
    simp [QuotedRest.prepend, ih hr']
  | case6 t => simp at h; simp [← h]
  | case7 => simp at h
  | case8 c t _ _ _ _ ih =>
    obtain ⟨r', hr', rfl⟩ := Option.map_eq_some_iff.1 h
    simp [QuotedRest.prepend, ih hr']

/-- Reads the literal that a text begins with. -/
def readQuoted? : Text → Option (Text × Text)
  | [] => none
  | q :: t =>
      if isQuote q then (readBody? q t).map fun r => (r.text, r.rest) else none

end GridScript.Script
