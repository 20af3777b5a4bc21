/-
Decimal numerals of natural numbers. Row numbers, sizes and indices are
written in decimal and read back from it; a numeral that is read must fit
a 64-bit word, and one that does not is refused rather than wrapped. A word
that is counted on from the last one starts over. The powers of two and of
ten are what binary and decimal places weigh.
-/
import GridScript.Text.Basic

namespace GridScript.Number

/-- A power of two. -/
def twoTo (n : Nat) : Nat := Nat.pow 2 n

/-- A power of ten. -/
def tenTo (n : Nat) : Nat := Nat.pow 10 n

/-- The numbers of a word are those below 2^64. -/
def wordBound : Nat := twoTo 64

/-- The number if a word can hold it. -/
def asWord? (n : Nat) : Option Nat :=
  if n < wordBound then some n else none

/-- The word after a word; behind the last one comes zero. -/
def wordAfter (n : Nat) : Nat := (n + 1) % wordBound

/-- The decimal numeral of a number, without leading zeros. -/
def decimal (n : Nat) : Text := Nat.toDigits 10 n

/-- The decimal numeral of an integer. -/
def integer (n : Int) : Text :=
  if n < 0 then '-' :: decimal n.natAbs else decimal n.natAbs

/-- The numeral with zeros in front, at least `width` digits in all. -/
def decimalPadded (width n : Nat) : Text :=
  let digits := decimal n
  List.replicate (width - digits.length) '0' ++ digits

/-- The value of a digit. -/
def digitValue (c : Char) : Nat := c.toNat - '0'.toNat

/-- The number that digits spell, read after `before`. -/
def ofDigits (before : Nat) (digits : Text) : Nat :=
  digits.foldl (fun n c => 10 * n + digitValue c) before

/-- Is the text one or more decimal digits? -/
def isDigits (t : Text) : Bool := !t.isEmpty && t.all Char.isDigit

/-- The word that digits spell; leading zeros are allowed. -/
def wordOfDigits? (t : Text) : Option Nat :=
  if isDigits t then asWord? (ofDigits 0 t) else none

/-- The word that digits spell, after a plus sign or without one. -/
def readWord? : Text → Option Nat
  | '+' :: t => wordOfDigits? t
  | t => wordOfDigits? t

/-- The value of a hexadecimal digit of either case. -/
def hexValue? (c : Char) : Option Nat :=
  if '0' ≤ c ∧ c ≤ '9' then some (c.toNat - '0'.toNat)
  else if 'a' ≤ c ∧ c ≤ 'f' then some (c.toNat - 'a'.toNat + 10)
  else if 'A' ≤ c ∧ c ≤ 'F' then some (c.toNat - 'A'.toNat + 10)
  else none

/-- The lower-case hexadecimal numeral, at least `width` digits. -/
def hexPadded (width n : Nat) : Text :=
  let digits := Nat.toDigits 16 n
  List.replicate (width - digits.length) '0' ++ digits

end GridScript.Number
