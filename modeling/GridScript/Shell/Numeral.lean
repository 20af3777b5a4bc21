/-
Numbers as commands read and print them: integers in one of
three bases, and fractions with a fixed number of places or an exponent.
-/
import GridScript.Number.Reading

namespace GridScript.Shell

-- ======================================================== integers

/-- What was read of a number at the beginning of a text: its value, what
follows it, and whether there was a number at all. -/
structure NumeralRead (α : Type) where
  value : α
  rest : Text
  found : Bool

/-- The digits of a base at the beginning of a text, as a number. -/
def digitsIn (base : Nat) (t : Text) : NumeralRead Nat :=
  let isDigit (c : Char) : Bool :=
    ((Number.hexValue? c).map fun d => decide (d < base)).getD false
  let digits := t.takeWhile isDigit
  ⟨digits.foldl (fun n c => base * n + (Number.hexValue? c).getD 0) 0,
    t.dropWhile isDigit, !digits.isEmpty⟩

/-- The number at the beginning of a text: octal after a zero, hexadecimal
after `0x`, otherwise decimal. -/
def naturalAtStart (t : Text) : NumeralRead Nat :=
  let hexadecimal (t : Text) : NumeralRead Nat :=
    let r := digitsIn 16 (t.drop 2)
    if r.found then r else ⟨0, t.drop 1, true⟩
  match t with
  | '0' :: 'x' :: _ => hexadecimal t
  | '0' :: 'X' :: _ => hexadecimal t
  | '0' :: _ => digitsIn 8 t
  | _ => digitsIn 10 t

/-- The integer at the beginning of a text, after blanks and a sign. -/
def integerAtStart (t : Text) : NumeralRead Int :=
  let trimmed := t.dropWhile fun c => " \t\n\x0b\x0c\r".toList.contains c
  let r := naturalAtStart (Number.unsigned trimmed)
  if r.found then
    ⟨if trimmed.head? = some '-' then -(r.value : Int)
      else r.value, r.rest, true⟩
  else ⟨0, t, false⟩

/-- The greatest integer of 64 bits. -/
def greatestInteger : Int := (Number.twoTo 63 : Nat) - 1

/-- The integer of 64 bits that is nearest. -/
def clamped (n : Int) : Int :=
  max (-greatestInteger - 1) (min greatestInteger n)

-- ======================================================== fractions

/-- The fraction at the beginning of a text: the longest beginning that is a
number. -/
def fractionAtStart (t : Text) : NumeralRead Double :=
  let trimmed := t.dropWhile fun c => " \t\n".toList.contains c
  let isPart (c : Char) : Bool := c.isAlphanum || "+-.".toList.contains c
  let word := trimmed.takeWhile isPart
  let lengths := (List.range (word.length + 1)).reverse
  match lengths.findSome? fun n => (Number.readDouble? (word.take n)).map
    (n, ·) with
  | some (n, x) => ⟨x, trimmed.drop n, true⟩
  | none => ⟨.zero, t, false⟩

/-- A quotient with a fixed number of places. -/
def fixedPoint (places num den : Nat) : Text :=
  let scaled := Double.nearest (num * Number.tenTo places) den
  let digits := Number.decimalPadded (places + 1) scaled
  let whole := digits.take (digits.length - places)
  if places = 0 then whole
  else whole ++ '.' :: digits.drop (digits.length - places)

/-- The exponent of the first digit of a quotient below one. The budget
bounds how small it can be. -/
def negativeExponent : Nat → Nat → Nat → Nat
  | 0, _, _ => 0
  | budget + 1, num, den =>
    if den ≤ 10 * num then 1 else negativeExponent budget (10 * num) den + 1

/-- A quotient rounded to so many places after its first digit: the digits,
and the exponent of the first one. -/
def scientific (places num den : Nat) : Nat × Int :=
  if num = 0 then (0, 0)
  else
    let e : Int :=
      if den ≤ num then ((Number.decimal (num / den)).length : Int) - 1
      else -(negativeExponent 400 num den : Int)
    let shift : Int := (places : Int) - e
    let digits :=
      Double.nearest (num * Number.tenTo shift.toNat)
        (den * Number.tenTo (-shift).toNat)
    if digits = Number.tenTo (places + 1) then (Number.tenTo places, e + 1)
    else (digits, e)

/-- A quotient with an exponent of at least two digits. -/
def exponentForm (places num den : Nat) : Text :=
  let (digits, e) := scientific places num den
  let t := Number.decimalPadded (places + 1) digits
  let mantissa := if places = 0 then t else t.take 1 ++ '.' :: t.drop 1
  mantissa ++ 'e' :: (if e < 0 then '-' else '+')
    :: Number.decimalPadded 2 e.natAbs

/-- A numeral without zeros at the end of its fraction. -/
def withoutZeros (t : Text) : Text :=
  if !t.contains '.' then t
  else
    let stripped := (t.reverse.dropWhile (· == '0')).reverse
    (Text.beforeLast? '.' stripped).getD stripped

/-- A quotient with so many digits, in the form that is shorter. -/
def generalForm (keepsZeros : Bool) (digits num den : Nat) : Text :=
  let digits := max digits 1
  let (_, e) := scientific (digits - 1) num den
  let strip (t : Text) : Text := if keepsZeros then t else withoutZeros t
  if -4 ≤ e ∧ e < digits then
    strip (fixedPoint ((digits : Int) - 1 - e).toNat num den)
  else
    let t := exponentForm (digits - 1) num den
    strip (t.takeWhile (· != 'e')) ++ t.dropWhile (· != 'e')

end GridScript.Shell
