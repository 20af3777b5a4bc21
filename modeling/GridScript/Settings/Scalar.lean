/-
The values in a settings file that are neither strings nor made of other
values: integers, numbers with a fraction, truth values and points in time.
Each is one word, a longest run of letters, digits and a few marks, except
that a single space may stand between a date and a time.

A setting can be an integer and nothing else of these, but a list may hold
any of them behind its settings. So every word is checked, and only the
integers are kept.
-/
import GridScript.Number.Reading
import GridScript.Value.Date

namespace GridScript.Settings

-- ======================================================== digits

/-- The digits of a numeral, in which an underscore may stand between any
two. -/
def plainDigits? (isDigit : Char → Bool) (t : Text) : Option Text :=
  let groups := Text.splitOn '_' t
  if groups.all fun g => !g.isEmpty && g.all isDigit then some groups.flatten
  else none

/-- Is the text digits, with or without underscores between them? -/
def areDigits (t : Text) : Bool := (plainDigits? Char.isDigit t).isSome

/-- The digits of a decimal numeral, which has no zero in front. -/
def decimalDigits? (t : Text) : Option Text := do
  let digits ← plainDigits? Char.isDigit t
  if digits.head? = some '0' ∧ 1 < digits.length then none else some digits

/-- Is the character a digit of a base? -/
def isDigitOf (base : Nat) (c : Char) : Bool :=
  ((Number.hexValue? c).map fun v => decide (v < base)).getD false

-- ======================================================== numbers

/-- How many binary digits an integer can have. -/
def integerWidth : Nat := 63

/-- How large an integer can be. -/
def integerBound : Nat := Number.twoTo integerWidth

/-- The number that digits of a base spell, unless it is so large that even
in the base two it would be too long. -/
def inBase? (base : Nat) (digits : Text) : Option Nat :=
  let digits := digits.dropWhile (· == '0')
  if integerWidth + 1 < digits.length then none
  else
    some (digits.foldl (fun n c => base * n + (Number.hexValue? c).getD 0) 0)

/-- The number if an integer can be as large. -/
def bounded? (n : Nat) : Option Int :=
  if n < integerBound then some n else none

/-- The integer that a numeral of a base spells after the base's mark. -/
def unsigned? (base : Nat) (t : Text) : Option Int := do
  bounded? (← inBase? base (← plainDigits? (isDigitOf base) t))

/-- The integer that a word spells. Only a decimal one has a sign, and the
least is one further from zero than the greatest. -/
def integer? (word : Text) : Option Int :=
  match word with
  | '0' :: 'x' :: t => unsigned? 16 t
  | '0' :: 'o' :: t => unsigned? 8 t
  | '0' :: 'b' :: t => unsigned? 2 t
  | '-' :: t => do
    let n ← inBase? 10 (← decimalDigits? t)
    if n ≤ integerBound then some (-n) else none
  | t => do bounded? (← inBase? 10 (← decimalDigits? (Number.unsigned t)))

/-- Is the text the part of a number behind its exponent mark, or is there
no such part? -/
def isExponent : Option Text → Bool
  | none => true
  | some t => areDigits (Number.unsigned t)

/-- Is the word a number with a fraction, an exponent or both? One that is
too large is refused, but not one that is too far below zero. -/
def isFraction (word : Text) : Bool :=
  let (mantissa, exponent) := Number.cutExponent (Number.unsigned word)
  let spelled := match Text.splitOn '.' mantissa with
    | [whole] => (decimalDigits? whole).isSome && exponent.isSome
    | [whole, fraction] => (decimalDigits? whole).isSome && areDigits fraction
    | _ => false
  spelled && isExponent exponent &&
    Number.readDouble? (word.filter (· != '_')) != some (.infinite false)

/-- The words for truth values and for the numbers that have no digits. -/
def names : List Text :=
  ["true", "false", "inf", "+inf", "-inf", "nan", "+nan", "-nan"].map
    String.toList

-- ======================================================== points in time

/-- Is the text two digits that spell a number up to `last`? -/
def isField (last : Nat) (t : Text) : Bool :=
  t.length == 2 && t.all Char.isDigit && decide (Number.ofDigits 0 t ≤ last)

/-- Is the text a day of the calendar, such as `2024-02-29`? -/
def isDate (t : Text) : Bool :=
  match Text.splitOn '-' t with
  | [year, month, day] =>
    (year ++ month ++ day).all Char.isDigit &&
      year.length == 4 && month.length == 2 && day.length == 2 &&
      isDay (Number.ofDigits 0 year) (Number.ofDigits 0 month)
        (Number.ofDigits 0 day)
  | _ => false

/-- Are these hours and minutes? -/
def areHours (hours minutes : Text) : Bool :=
  isField 23 hours && isField 59 minutes

/-- Is the text seconds, with or without a fraction? -/
def isSeconds (t : Text) : Bool :=
  match Text.splitOn '.' t with
  | [whole] => isField 60 whole
  | [whole, fraction] => isField 60 whole && Number.isDigits fraction
  | _ => false

/-- Is the text a time of day, such as `07:32:00`? -/
def isTime (t : Text) : Bool :=
  match Text.splitOn ':' t with
  | [hours, minutes, seconds] => areHours hours minutes && isSeconds seconds
  | _ => false

/-- Is the text the place of a time zone, such as `Z` or `-07:00`, or is
there none? -/
def isZone : Text → Bool
  | [] => true
  | ['Z'] => true
  | ['z'] => true
  | sign :: t =>
    (sign == '+' || sign == '-') &&
      match Text.splitOn ':' t with
      | [hours, minutes] => areHours hours minutes
      | _ => false

/-- Does the character begin the place of a time zone? -/
def beginsZone (c : Char) : Bool :=
  c == 'Z' || c == 'z' || c == '+' || c == '-'

/-- Is the text a time of day with or without a time zone? -/
def isZonedTime (t : Text) : Bool :=
  isTime (t.takeWhile (!beginsZone ·)) && isZone (t.dropWhile (!beginsZone ·))

/-- How many characters a date has. -/
def dateWidth : Nat := 10

/-- Is the text a date, a time of day, or a date and a time? -/
def isMoment (t : Text) : Bool :=
  isDate t || isTime t ||
    match t.drop dateWidth with
    | between :: time =>
      (between == 'T' || between == 't' || between == ' ') &&
        isDate (t.take dateWidth) && isZonedTime time
    | [] => false

-- ======================================================== words

/-- Can a word go on with the character? -/
def isWordChar (c : Char) : Bool :=
  c.isAlphanum || c == '_' || c == '+' || c == '-' || c == '.' || c == ':'

/-- The word at the beginning of a text, which for a date holds the time
after a space. -/
def firstWord (t : Text) : Text :=
  let word := t.takeWhile isWordChar
  match t.drop word.length with
  | ' ' :: c :: rest =>
    if isDate word && c.isDigit then
      word ++ ' ' :: (c :: rest).takeWhile isWordChar else word
  | _ => word

/-- What a word says. -/
inductive Scalar where
  | integer (n : Int)
  /-- Something that no setting is. -/
  | other

/-- Reads a word. -/
def Scalar.ofWord? (word : Text) : Option Scalar :=
  if names.contains word || isFraction word || isMoment word then some other
  else (integer? word).map integer

end GridScript.Settings
