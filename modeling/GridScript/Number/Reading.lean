/-
Reading a number that a person or a program wrote: an optional sign,
digits with at most one point among or around them, and an optional
exponent. `isNumeral` is the grammar that the formula language and the
script scanner share; `readDouble?` gives the double nearest to what such
a text says, and also knows the words for infinity and for what is not a
number.
-/
import GridScript.Number.Double

namespace GridScript.Number

/-- Drops one sign. -/
def unsigned : Text → Text
  | '+' :: t => t
  | '-' :: t => t
  | t => t

/-- A numeral cut at its exponent mark. -/
def cutExponent : Text → Text × Option Text
  | [] => ([], none)
  | c :: t =>
    if c = 'e' ∨ c = 'E' then ([], some t)
    else
      let (mantissa, exponent) := cutExponent t
      (c :: mantissa, exponent)

/-- Digits, at least one, and at most one point. -/
def isMantissa (t : Text) : Bool :=
  t.all (fun c => c.isDigit || c == '.') && t.any Char.isDigit
    && decide (t.count '.' ≤ 1)

/-- Is the text a bare number: `12`, `-3.5`, `.5`, `1e-3`? -/
def isNumeral (t : Text) : Bool :=
  match cutExponent (unsigned t) with
  | (mantissa, none) => isMantissa mantissa
  | (mantissa, some exponent) =>
      isMantissa mantissa && isDigits (unsigned exponent)

/-- The digits of a mantissa and how many of them follow its point. -/
def mantissaValue (t : Text) : Nat × Nat :=
  let after := (t.dropWhile (· != '.')).drop 1
  (ofDigits 0 (t.filter (· != '.')), after.length)

/-- The value of an exponent. Beyond a million it no longer matters which,
and the number it belongs to is zero or infinite. -/
def exponentValue (t : Text) : Int :=
  let size : Int := ((min (ofDigits 0 (unsigned t)) 1000000 : Nat) : Int)
  if t.head? = some '-' then -size else size

/-- The double nearest to a numeral. -/
def readDouble? (t : Text) : Option Double :=
  let negative := t.head? == some '-'
  let word := Text.lower (unsigned t)
  if word = "nan".toList then some .nan
  else if word = "inf".toList ∨ word = "infinity".toList then
    some (.infinite negative)
  else if isNumeral t then
    let (mantissa, exponent) := cutExponent (unsigned t)
    let (digits, places) := mantissaValue mantissa
    let scale : Int :=
      ((exponent.map exponentValue).getD 0 : Int) - (places : Int)
    some (.ofDecimal negative digits (if digits = 0 then 0 else scale))
  else none

end GridScript.Number
