/-
The double that a JSON number stands for. Its digits are gathered into a
word as far as one can hold them; further digits before the point count
into the exponent and further ones after it are dropped. The word is then
rounded to a double and scaled by the power of ten, which is itself a
double, with one more rounding. For up to fifteen digits and exponents up
to 22 this is the double nearest to the number; beyond, it may be a
neighbour. A number that this makes infinite is refused.
-/
import GridScript.Json.Basic
import GridScript.Number.Reading

namespace GridScript.Json

/-- Gathers digits into a word until one would not fit. Gives the word and
how many digits went into it. -/
def gather : Nat → Text → Nat × Nat
  | word, [] => (word, 0)
  | word, c :: t =>
    let next := 10 * word + Number.digitValue c
    if next < Number.wordBound then
      let (result, count) := gather next t
      (result, count + 1)
    else (word, 0)

/-- The power of ten from which a number is scaled in steps. -/
def scaleLimit : Nat := 308

/-- The double nearest to a power of ten. -/
def powerOfTen (n : Nat) : Double := .ofDecimal false 1 n

/-- The quotient by a power of ten within the limit. -/
def divPower (rank : Fin Double.ranks) (n : Nat) : Double :=
  ((powerOfTen n).rank?.map (Double.divRank rank)).getD .nan

/-- The product with a power of ten within the limit. -/
def mulPower? (rank : Fin Double.ranks) (n : Nat) : Option Double :=
  (powerOfTen n).rank?.bind fun power => (Double.mulRank rank power).bounded?

/-- Scales a magnitude by `10 ^ exponent`. An exponent below the limit
takes several quotients, of which the first two already reach zero. -/
def scaleRank? (steps : Nat) (rank : Fin Double.ranks) (exponent : Int) :
    Option Double :=
  if rank.val = 0 then some .zero
  else if exponent.natAbs ≤ scaleLimit then
    if 0 ≤ exponent then mulPower? rank exponent.natAbs
    else some (divPower rank exponent.natAbs)
  else if 0 ≤ exponent then none
  else
    match steps with
    | 0 => some .zero
    | steps + 1 =>
        (divPower rank scaleLimit).rank?.elim (some .zero) fun quotient =>
          scaleRank? steps quotient (exponent + scaleLimit)

/-- The double of a gathered word and its exponent. -/
def scaled? (word : Nat) (exponent : Int) : Option Double :=
  (Double.ofNat word).rank?.bind fun rank => scaleRank? 4 rank exponent

/-- The exponent that a number's exponent part adds, or none if it exceeds
what 31 bits hold. -/
def exponentPart? : Option Text → Option Int
  | none => some 0
  | some t =>
    let size := Number.ofDigits 0 (Number.unsigned t)
    if size < Number.twoTo 31 then
      some (if t.head? = some '-' then -(size : Int) else size)
    else none

/-- The double of a number without its sign. -/
def magnitude? (t : Text) : Option Double :=
  let (mantissa, exponent) := Number.cutExponent t
  let whole := mantissa.takeWhile Char.isDigit
  let fraction := (mantissa.dropWhile Char.isDigit).drop 1
  let (word, taken) := gather 0 whole
  let (word, places) := gather word fraction
  match exponentPart? exponent with
  | some e => scaled? word (e - places + (whole.length - taken : Nat))
  | none =>
      if word = 0 ∨ (exponent.bind (·.head?)) = some '-' then some .zero
      else none

/-- The double that a number's spelling stands for. -/
def toDouble? (spelling : Text) : Option Double :=
  match spelling with
  | '-' :: t => (magnitude? t).map Double.neg
  | t => magnitude? t

/-- The word that a number's spelling stands for: digits alone, without a
sign, a point or an exponent. -/
def toWord? (spelling : Text) : Option Nat := Number.wordOfDigits? spelling

end GridScript.Json
