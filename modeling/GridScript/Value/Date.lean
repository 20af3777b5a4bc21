/-
Calendar dates and times of day, without a time zone. A date is a day of
the Gregorian calendar, extended in both directions to some 262 thousand
years. It is written with four digits for a year from 0 to 9999 and with a
sign before any other, and read with one to four digits, or any number of
them after a sign. Blanks may stand before each number but not after it.
-/
import GridScript.Number.Natural
import GridScript.Text.Blank

namespace GridScript

-- ======================================================== the calendar

/-- Has the year a 29th of February? -/
def isLeapYear (year : Int) : Bool :=
  year % 4 == 0 && (year % 100 != 0 || year % 400 == 0)

/-- How many days a month has; none if there is no such month. -/
def daysInMonth (year : Int) (month : Nat) : Nat :=
  match month with
  | 2 => if isLeapYear year then 29 else 28
  | 4 | 6 | 9 | 11 => 30
  | 1 | 3 | 5 | 7 | 8 | 10 | 12 => 31
  | _ => 0

/-- Is there such a day, in a year that the calendar covers? -/
def isDay (year : Int) (month day : Nat) : Bool :=
  decide (-262143 ≤ year) && decide (year ≤ 262142) && decide (1 ≤ day) &&
    decide (day ≤ daysInMonth year month)

/-- A day of the calendar. -/
structure Date where
  year : Int
  month : Nat
  day : Nat
  occurs : isDay year month day = true
  deriving DecidableEq

-- ======================================================== numbers in fields

/-- Reads a number of at most `width` digits after blanks, or of any
length if no width is given. -/
def readField? (width : Option Nat) (t : Text) : Option (Nat × Text) :=
  let t := Text.trimStart t
  let digits := t.takeWhile Char.isDigit
  let digits := match width with
    | some n => digits.take n
    | none => digits
  if digits.isEmpty then none
  else some (Number.ofDigits 0 digits, t.drop digits.length)

/-- Reads a character that must come next. -/
def expect? (c : Char) (t : Text) : Option Text := Text.afterStart? [c] t

namespace Date

/-- Reads a year. After a sign its digits follow at once, and there may be
more than four of them. -/
def readYear? (t : Text) : Option (Int × Text) :=
  match Text.trimStart t with
  | '-' :: t => if (t.head?.map Char.isDigit).getD false then
      (readField? none t).map fun (n, rest) => (-(n : Int), rest) else none
  | '+' :: t => if (t.head?.map Char.isDigit).getD false then
      (readField? none t).map fun (n, rest) => ((n : Int), rest) else none
  | t => (readField? (some 4) t).map fun (n, rest) => ((n : Int), rest)

/-- Reads a date written as year, month and day with dashes between. -/
def parse? (t : Text) : Option Date := do
  let (year, t) ← readYear? (Text.trim t)
  let t ← expect? '-' t
  let (month, t) ← readField? (some 2) t
  let t ← expect? '-' t
  let (day, t) ← readField? (some 2) t
  if !t.isEmpty then none
  else if h : isDay year month day then return ⟨year, month, day, h⟩
  else none

/-- The text of a year. -/
def yearText (year : Int) : Text :=
  let digits := Number.decimalPadded 4 year.natAbs
  if year < 0 then '-' :: digits
  else if 9999 < year then '+' :: digits
  else digits

/-- The text of a date. -/
def text (d : Date) : Text :=
  yearText d.year ++ '-' :: Number.decimalPadded 2 d.month
    ++ '-' :: Number.decimalPadded 2 d.day

end Date

-- ======================================================== times of day

namespace TimeOfDay

/-- How many seconds a day has. -/
def secondsPerDay : Nat := 86400

/-- The seconds since midnight, counted anew at each midnight. -/
def ofClock (hours minutes seconds : Nat) : Nat :=
  (hours * 3600 + minutes * 60 + seconds) % secondsPerDay

/-- The text of a number of seconds since midnight; whole days do not
count. -/
def text (seconds : Nat) : Text :=
  let s := seconds % secondsPerDay
  Number.decimalPadded 2 (s / 3600)
    ++ ':' :: Number.decimalPadded 2 (s / 60 % 60) ++
    ':' :: Number.decimalPadded 2 (s % 60)

/-- Reads a number of up to two digits that may not exceed `last`. -/
def readPart? (last : Nat) (t : Text) : Option (Nat × Text) := do
  let (n, rest) ← readField? (some 2) t
  if n ≤ last then return (n, rest) else none

/-- The seconds after the minutes. A leap second counts as the one before
it. -/
def readSeconds? (t : Text) : Option Nat := do
  let t ← expect? ':' t
  let (s, rest) ← readPart? 60 t
  if rest.isEmpty then return min s 59 else none

/-- Reads a time of day, with or without seconds, as seconds since
midnight. -/
def parse? (t : Text) : Option Nat := do
  let (h, t) ← readPart? 23 (Text.trim t)
  let t ← expect? ':' t
  let (m, t) ← readPart? 59 t
  let s ← if t.isEmpty then some 0 else readSeconds? t
  return h * 3600 + m * 60 + s

end TimeOfDay

end GridScript
