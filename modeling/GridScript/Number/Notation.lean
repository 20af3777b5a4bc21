/-
How a double is written. Cell text and script literals use plain decimal
notation for every magnitude, without a point where the number is whole;
JSON keeps a point or an exponent in every number, so that a reader sees a
double, and turns to an exponent outside of 10^-5 up to 10^16.
-/
import GridScript.Number.Shortest

namespace GridScript.Number

/-- A run of zeros. -/
def zeros (n : Nat) : Text := List.replicate n '0'

-- ======================================================== plain notation

/-- A decimal with its point in place and no exponent. -/
def plainDecimal (d : Decimal) : Text :=
  let digits := decimal d.digits
  let places := (-d.exponent).toNat
  if places = 0 then digits ++ zeros d.exponent.toNat
  else if digits.length ≤ places then
    '0' :: '.' :: (zeros (places - digits.length) ++ digits)
  else
    digits.take (digits.length - places)
      ++ '.' :: digits.drop (digits.length - places)

/-- A sign in front of a negative number. -/
def signed (negative : Bool) (t : Text) : Text :=
  if negative then '-' :: t else t

/-- The plain text of a double. Of two equally near decimals the larger
is written. -/
def plain : Double → Text
  | .nan => "NaN".toList
  | .infinite s => signed s "inf".toList
  | .finite s rank =>
      signed s
        (if rank.val = 0 then ['0'] else plainDecimal (shortest .up rank))

-- ======================================================== JSON notation

/-- A decimal with one digit before the point, and an exponent with its
sign. -/
def exponentDecimal (d : Decimal) : Text :=
  let digits := decimal d.digits
  let exponent : Int := d.exponent + digits.length - 1
  let mantissa :=
    match digits with
    | [] => []
    | [c] => [c]
    | c :: rest => c :: '.' :: rest
  let sign := if exponent < 0 then '-' else '+'
  mantissa ++ 'e' :: sign :: decimal exponent.natAbs

/-- The JSON text of a magnitude other than zero. -/
def jsonMagnitude (d : Decimal) : Text :=
  let leading : Int := d.exponent + (decimal d.digits).length - 1
  if -5 ≤ leading ∧ leading < 16 then
    let whole := 0 ≤ d.exponent
    plainDecimal d ++ (if whole then ".0".toList else [])
  else exponentDecimal d

/-- The JSON text of a double. JSON has no text for a number that is not
finite and `null` stands for it. Of two equally near decimals the even
one is written. -/
def json : Double → Text
  | .nan => "null".toList
  | .infinite _ => "null".toList
  | .finite s rank =>
    signed s (if rank.val = 0 then "0.0".toList
      else jsonMagnitude (shortest .even rank))

end GridScript.Number
