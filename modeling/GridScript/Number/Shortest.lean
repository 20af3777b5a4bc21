/-
The fewest digits that read back. Of all decimals that round to a given
double, those with the fewest digits are considered, and of these the one
nearest to the double; which of two that are equally near is chosen is
left to the notation.

The choice is made by exact arithmetic. The decimals that round to a
double form an interval, from halfway to the magnitude below to halfway to
the magnitude above, with the ends included when the mantissa is even.
For one digit, two digits and so on the two neighbours of the double on
that decimal grid are tried, and the first grid with a hit has the fewest
digits.
-/
import GridScript.Number.Double

namespace GridScript.Number

/-- A decimal, `digits * 10 ^ exponent`. -/
structure Decimal where
  digits : Nat
  exponent : Int
  deriving DecidableEq

/-- Which of two equally near decimals a notation takes. -/
inductive Tie where
  /-- The larger one. -/
  | up
  /-- The one whose last digit is even. -/
  | even
  deriving DecidableEq

-- ======================================================== the interval

/-- Compares `a * 10 ^ i` with `b * 2 ^ j`. -/
def compareScaled (a : Nat) (i : Int) (b : Nat) (j : Int) : Ordering :=
  compare (a * tenTo i.toNat * twoTo (-j).toNat)
    (b * twoTo j.toNat * tenTo (-i).toNat)

/-- Does the decimal round to the magnitude of this rank? In quarters of
the spacing the magnitude is four mantissas; the magnitude below is only
half as far away at the start of a binade. -/
def roundsTo (rank : Nat) (d : Decimal) : Bool :=
  let x := Double.magnitude rank
  let narrow := rank % twoTo 52 == 0 && decide (twoTo 53 ≤ rank)
  let low := 4 * x.mantissa - (if narrow then 1 else 2)
  let high := 4 * x.mantissa + 2
  let ends := x.mantissa % 2 == 0
  let atLow := compareScaled d.digits d.exponent low (x.exponent - 2)
  let atHigh := compareScaled d.digits d.exponent high (x.exponent - 2)
  (atLow == .gt || (ends && atLow == .eq))
    && (atHigh == .lt || (ends && atHigh == .eq))

-- ======================================================== the search

/-- The least `k` with the quotient below `10 ^ k`. -/
def decimalScale (num den : Nat) : Int :=
  if den ≤ num then ((decimal (num / den)).length : Int)
  else 1 - ((decimal ((den - 1) / num)).length : Int)

/-- The neighbours of a magnitude on the grid `10 ^ exponent` that round
to it, reduced to the one that is taken. -/
def onGrid? (tie : Tie) (rank : Nat) (exponent : Int) : Option Decimal :=
  let (num, den) := (Double.magnitude rank).ratio
  let num := num * tenTo (-exponent).toNat
  let den := den * tenTo exponent.toNat
  let below := num / den
  let above := below + 1
  match roundsTo rank ⟨below, exponent⟩, roundsTo rank ⟨above, exponent⟩ with
  | false, false => none
  | true, false => some ⟨below, exponent⟩
  | false, true => some ⟨above, exponent⟩
  | true, true =>
    match compare (2 * num) ((below + above) * den) with
    | .lt => some ⟨below, exponent⟩
    | .gt => some ⟨above, exponent⟩
    | .eq =>
      match tie with
      | .up => some ⟨above, exponent⟩
      | .even => some ⟨if below % 2 = 0 then below else above, exponent⟩

/-- The decimal without its trailing zeros, of which it has fewer than
`fuel`. -/
def stripZeros : Nat → Decimal → Decimal
  | 0, d => d
  | fuel + 1, d =>
    if d.digits ≠ 0 ∧ d.digits % 10 = 0 then
      stripZeros fuel ⟨d.digits / 10, d.exponent + 1⟩ else d

/-- The shortest decimal of a magnitude other than zero. Seventeen digits
are always enough; the exact value stands at the end only to make the
search total. -/
def shortest (tie : Tie) (rank : Nat) : Decimal :=
  let x := Double.magnitude rank
  let (num, den) := x.ratio
  let scale := decimalScale num den
  let found :=
    (List.range 17).findSome? fun (n : Nat) =>
      onGrid? tie rank (scale - (n + 1))
  match found with
  | some d => stripZeros 20 d
  | none =>
      ⟨x.mantissa * twoTo x.exponent.toNat * Nat.pow 5 (-x.exponent).toNat,
        min x.exponent 0⟩

end GridScript.Number
