/-
Integer expressions: the operators of arithmetic, comparison and logic, the
choice between two values, and assignment. Numbers are 64 bits wide and
wrap around. A name stands for its variable, and one that has no number
stands for zero.
-/
import GridScript.Shell.Numeral
import GridScript.Text.Word

namespace GridScript.Shell.Arithmetic

/-- A token of an expression. -/
inductive Token where
  | number (n : Int)
  | name (n : Text)
  | operator (t : Text)
  deriving DecidableEq

/-- An expression. -/
inductive Expression where
  | number (n : Int)
  | name (n : Text)
  | unary (operator : Text) (e : Expression)
  | binary (operator : Text) (a b : Expression)
  | choice (test yes no : Expression)
  /-- Assigns to a name, after an operation if one is given. -/
  | assign (name operator : Text) (e : Expression)

-- ======================================================== tokens

/-- The operators of several characters, the longest first. -/
def longOperators : List Text :=
  ["<<=", ">>=", "<<", ">>", "<=", ">=", "==", "!=", "&&", "||", "+=", "-=",
   "*=", "/=", "%=", "&=", "|=", "^="].map String.toList

/-- The tokens of a source. A number ends where its base has no digits for
it, and what no token begins with is a token of its own. The budget bounds
their number. -/
def tokens : Nat → Text → List Token
  | 0, _ => []
  | _, [] => []
  | budget + 1, c :: t =>
    if " \t\n".toList.contains c then tokens budget t
    else if c.isDigit then
      let r := naturalAtStart (c :: t)
      .number (clamped r.value) :: tokens budget r.rest
    else if Text.isWordStart c then
      .name (c :: Text.word t) :: tokens budget (Text.afterWord t)
    else
      match longOperators.find? fun o => o.isPrefixOf (c :: t) with
      | some o => .operator o :: tokens budget ((c :: t).drop o.length)
      | none => .operator [c] :: tokens budget t

-- ======================================================== expressions

/-- How tightly a binary operator binds; the assignments do not. -/
def strength? (operator : Text) : Option Nat :=
  match String.ofList operator with
  | "||" => some 1
  | "&&" => some 2
  | "|" => some 3
  | "^" => some 4
  | "&" => some 5
  | "==" => some 6
  | "!=" => some 6
  | "<" => some 7
  | ">" => some 7
  | "<=" => some 7
  | ">=" => some 7
  | "<<" => some 8
  | ">>" => some 8
  | "+" => some 9
  | "-" => some 9
  | "*" => some 10
  | "/" => some 10
  | "%" => some 10
  | _ => none

/-- The operators that end like an assignment and are none. -/
def comparisons : List Text := ["==", "!=", "<=", ">="].map String.toList

/-- The operation of an assignment, if the operator is one. -/
def assignment? (operator : Text) : Option Text :=
  if operator = ['='] then some []
  else if comparisons.contains operator then none
  else if longOperators.contains operator && operator.getLast? = some '=' then
    some (List.dropLast operator)
  else none

/-- What was expected where something else stands. -/
abbrev Expected := Text

mutual

/-- An expression, with choice and assignment. -/
def readExpression :
    Nat → List Token → Except Expected (Expression × List Token)
  | 0, _ => .error "primary".toList
  | budget + 1, .name n :: .operator o :: ts =>
    match assignment? o with
    | some operation => do
      let (e, ts) ← readExpression budget ts
      return (.assign n operation e, ts)
    | none => readChoice budget (.name n :: .operator o :: ts)
  | budget + 1, ts => readChoice budget ts

/-- An expression without assignment. -/
def readChoice : Nat → List Token → Except Expected (Expression × List Token)
  | 0, _ => .error "primary".toList
  | budget + 1, ts => do
    let (test, ts) ← readBinary budget 1 ts
    match ts with
    | .operator ['?'] :: ts => do
      let (yes, ts) ← readExpression budget ts
      match ts with
      | .operator [':'] :: ts => do
        let (no, ts) ← readChoice budget ts
        return (.choice test yes no, ts)
      | _ => throw "':'".toList
    | ts => return (test, ts)

/-- Operands joined by operators that bind at least so tightly. -/
def readBinary :
    Nat → Nat → List Token → Except Expected (Expression × List Token)
  | 0, _, _ => .error "primary".toList
  | budget + 1, least, ts => do
    let (first, ts) ← readUnary budget ts
    readBinaryAfter budget least first ts

/-- What follows an operand that was read. -/
def readBinaryAfter : Nat → Nat → Expression → List Token →
    Except Expected (Expression × List Token)
  | 0, _, _, _ => .error "primary".toList
  | budget + 1, least, first, .operator o :: ts =>
    match strength? o with
    | some strength =>
      if strength < least then .ok (first, .operator o :: ts)
      else do
        let (second, ts) ← readBinary budget (strength + 1) ts
        readBinaryAfter budget least (.binary o first second) ts
    | none => .ok (first, .operator o :: ts)
  | _, _, first, ts => .ok (first, ts)

/-- An operand with the signs in front of it. -/
def readUnary : Nat → List Token → Except Expected (Expression × List Token)
  | 0, _ => .error "primary".toList
  | _, .number n :: ts => .ok (.number n, ts)
  | _, .name n :: ts => .ok (.name n, ts)
  | budget + 1, .operator ['('] :: ts => do
    let (e, ts) ← readExpression budget ts
    match ts with
    | .operator [')'] :: ts => return (e, ts)
    | _ => throw "')'".toList
  | budget + 1, .operator [o] :: ts =>
    if "+-!~".toList.contains o then do
      let (e, ts) ← readUnary budget ts
      return (.unary [o] e, ts)
    else .error "primary".toList
  | _, _ => .error "primary".toList

end

/-- The expression that a source begins with, and whether that is all of
it. -/
def read (t : Text) : Except Expected (Expression × Bool) := do
  let ts := tokens (t.length + 1) t
  let (e, rest) ← readExpression (8 * ts.length + 8) ts
  return (e, rest.isEmpty)

-- ======================================================== values

/-- Variables by name. -/
abbrev Variables := List (Text × Text)

/-- The number in 64 bits. -/
def wrap (n : Int) : Int := Int.bmod n Number.wordBound

/-- Why an expression has no value. -/
inductive Fault where
  | divisionByZero
  | noNumber (t : Text)
  deriving DecidableEq

/-- The number of a text; one without anything in it is zero. -/
def valueOf (t : Text) : Except Fault Int :=
  let isBlank (c : Char) : Bool := " \t\n".toList.contains c
  let r := integerAtStart t
  if t.all isBlank then .ok 0
  else if r.found && r.rest.all isBlank && clamped r.value == r.value then
    .ok r.value
  else .error (.noNumber t)

/-- A truth value as a number. -/
def truth (b : Bool) : Int := if b then 1 else 0

/-- The value of an operation. -/
def operate (operator : Text) (a b : Int) : Except Fault Int :=
  match String.ofList operator with
  | "+" => .ok (a + b)
  | "-" => .ok (a - b)
  | "*" => .ok (a * b)
  | "/" => if b = 0 then .error .divisionByZero else .ok (Int.tdiv a b)
  | "%" => if b = 0 then .error .divisionByZero else .ok (Int.tmod a b)
  | "<" => .ok (truth (decide (a < b)))
  | ">" => .ok (truth (decide (b < a)))
  | "<=" => .ok (truth (decide (a ≤ b)))
  | ">=" => .ok (truth (decide (b ≤ a)))
  | "==" => .ok (truth (a == b))
  | "!=" => .ok (truth (a != b))
  | "<<" => .ok (a * (Number.twoTo (b % 64).toNat : Int))
  | ">>" => .ok (Int.fdiv a (Number.twoTo (b % 64).toNat))
  | "&" => .ok (BitVec.ofInt 64 a &&& BitVec.ofInt 64 b).toInt
  | "|" => .ok (BitVec.ofInt 64 a ||| BitVec.ofInt 64 b).toInt
  | "^" => .ok (BitVec.ofInt 64 a ^^^ BitVec.ofInt 64 b).toInt
  | _ => .ok b

/-- The value of an expression, and the variables after it. -/
def evaluate (vs : Variables) : Expression → Except Fault (Int × Variables)
  | .number n => .ok (wrap n, vs)
  | .name n => (valueOf ((vs.lookup n).getD [])).map fun v => (wrap v, vs)
  | .unary o e => do
    let (v, vs) ← evaluate vs e
    let v := if o = ['-'] then -v else if o = ['!'] then truth (v == 0)
      else if o = ['~'] then -v - 1 else v
    return (wrap v, vs)
  | .binary o a b => do
    let (x, vs) ← evaluate vs a
    if o = "&&".toList ∧ x = 0 then return (0, vs)
    else if o = "||".toList ∧ x ≠ 0 then return (1, vs)
    else
      let (y, vs) ← evaluate vs b
      if o = "&&".toList ∨ o = "||".toList then return (truth (y != 0), vs)
      else return (wrap (← operate o x y), vs)
  | .choice test yes no => do
    let (v, vs) ← evaluate vs test
    if v ≠ 0 then evaluate vs yes else evaluate vs no
  | .assign n o e => do
    let (v, vs) ← evaluate vs e
    let before ← if o.isEmpty then .ok 0 else valueOf ((vs.lookup n).getD [])
    let v := wrap (← operate o before v)
    return (v, (n, Number.integer v) :: vs.filter (·.1 != n))

/-- The names that an expression assigns to. -/
def assigned : Expression → List Text
  | .number _ => []
  | .name _ => []
  | .unary _ e => assigned e
  | .binary _ a b => assigned a ++ assigned b
  | .choice test yes no => assigned test ++ assigned yes ++ assigned no
  | .assign n _ e => n :: assigned e

end GridScript.Shell.Arithmetic
