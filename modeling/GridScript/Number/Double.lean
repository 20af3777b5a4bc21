/-
Numbers of a table are doubles: the values of IEEE 754 binary64. The
program never computes with them; it reads them, compares them with zero
and prints them. So a double is held as what it is a choice of: not a
number, an infinity, or one of the finite magnitudes, which are counted
upwards from zero. The rank of a magnitude in that count is its bit
pattern, neighbours have neighbouring ranks, and two doubles are the same
value exactly when they are equal.

Every finite result comes from one rounding, `ofRatio`: the double nearest
to a quotient of natural numbers, the even one of two that are equally
near. Products and quotients of doubles, which the JSON reader needs, are
roundings of exact quotients.
-/
import GridScript.Number.Natural

namespace GridScript

/-- How many finite magnitudes there are. -/
def Double.ranks : Nat := 2047 * Number.twoTo 52

/-- A double-precision number. -/
inductive Double where
  /-- Not a number. -/
  | nan
  /-- Beyond every finite number, on one side or the other. -/
  | infinite (negative : Bool)
  /-- A finite number: its sign, and its magnitude's place in the
  increasing list of all magnitudes. Zero has either sign. -/
  | finite (negative : Bool) (rank : Fin Double.ranks)
  deriving DecidableEq

namespace Double

open Number (twoTo tenTo)

/-- Zero, without a sign. -/
def zero : Double := .finite false ⟨0, by decide⟩

instance : Inhabited Double := ⟨zero⟩

/-- Is the number zero, of either sign? -/
def isZero : Double → Bool
  | .finite _ rank => rank.val == 0
  | _ => false

/-- Is the number a zero or another finite number? -/
def isFinite : Double → Bool
  | .finite .. => true
  | _ => false

/-- The magnitude of a finite number, by its rank. -/
def rank? : Double → Option (Fin ranks)
  | .finite _ rank => some rank
  | _ => none

/-- The number, unless it is infinite. -/
def bounded? : Double → Option Double
  | .infinite _ => none
  | x => some x

-- ======================================================== magnitudes

/-- A magnitude `mantissa * 2 ^ exponent`. -/
structure Magnitude where
  mantissa : Nat
  exponent : Int

/-- The magnitude of a rank: the lowest binade and the one above it share
the least spacing, and each further binade doubles it. -/
def magnitude (rank : Nat) : Magnitude :=
  let binade : Nat := rank / twoTo 52
  let fraction : Nat := rank % twoTo 52
  if binade = 0 then ⟨fraction, -1074⟩
  else ⟨twoTo 52 + fraction, (binade : Int) - 1075⟩

/-- The magnitude as a numerator and a denominator. -/
def Magnitude.ratio (x : Magnitude) : Nat × Nat :=
  (x.mantissa * twoTo x.exponent.toNat, twoTo (-x.exponent).toNat)

-- ======================================================== rounding

/-- The natural number nearest to a quotient, the even one of two. -/
def nearest (num den : Nat) : Nat :=
  let floor := num / den
  let twice := 2 * (num % den)
  if twice < den then floor
  else if den < twice then floor + 1
  else if floor % 2 = 0 then floor else floor + 1

/-- The exponent at which a quotient is rounded: its mantissa then has 53
bits, or the spacing is the least there is. -/
def roundingExponent (num den : Nat) : Int :=
  if num = 0 then -1074 else
  let estimate : Int := (Nat.log2 num : Int) - Nat.log2 den - 53
  let fits :=
    num * twoTo (-estimate).toNat < twoTo 53 * (den * twoTo estimate.toNat)
  max (-1074) (if fits then estimate else estimate + 1)

/-- The double nearest to `num / den`; too large a quotient is infinite.
A mantissa that rounds up to 2^53 carries into the next binade by itself,
because ranks run on. -/
def ofRatio (negative : Bool) (num den : Nat) : Double :=
  let q := roundingExponent num den
  let mantissa := nearest (num * twoTo (-q).toNat) (den * twoTo q.toNat)
  let rank := (q + 1074).toNat * twoTo 52 + mantissa
  if h : rank < ranks then .finite negative ⟨rank, h⟩ else .infinite negative

/-- The double nearest to a natural number. -/
def ofNat (n : Nat) : Double := ofRatio false n 1

/-- The double nearest to `± digits * 10 ^ exponent`. -/
def ofDecimal (negative : Bool) (digits : Nat) (exponent : Int) : Double :=
  ofRatio negative (digits * tenTo exponent.toNat) (tenTo (-exponent).toNat)

-- ======================================================== arithmetic

/-- The number with the other sign. -/
def neg : Double → Double
  | .nan => .nan
  | .infinite s => .infinite (!s)
  | .finite s rank => .finite (!s) rank

/-- The double nearest to the product of two magnitudes. -/
def mulRank (a b : Fin ranks) : Double :=
  let (n₁, d₁) := (magnitude a).ratio
  let (n₂, d₂) := (magnitude b).ratio
  ofRatio false (n₁ * n₂) (d₁ * d₂)

/-- The double nearest to the quotient of two magnitudes, the second not
zero. -/
def divRank (a b : Fin ranks) : Double :=
  let (n₁, d₁) := (magnitude a).ratio
  let (n₂, d₂) := (magnitude b).ratio
  ofRatio false (n₁ * d₂) (d₁ * n₂)

end Double

end GridScript
