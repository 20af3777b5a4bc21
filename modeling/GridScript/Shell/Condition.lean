/-
The conditions of `test`: what a text is like, how two texts or numbers
compare, what stands at a path, and combinations of these.

A word that could be an operator is one only where an operator can stand,
which depends on the words after it; so every step looks at the words that
are left, and leaves the last one that it used as the first of them.
-/
import GridScript.Shell.Lookup
import GridScript.Shell.Numeral

namespace GridScript.Shell

/-- A decimal integer of 64 bits, with blanks around it or without. -/
def decimal? (t : Text) : Option Int :=
  let isBlank (c : Char) : Bool := " \t\n\x0b\x0c\r".toList.contains c
  let trimmed := ((t.dropWhile isBlank).reverse.dropWhile isBlank).reverse
  let digits := Number.unsigned trimmed
  if !Number.isDigits digits then none
  else
    let n : Int := Number.ofDigits 0 digits
    let n := if trimmed.head? = some '-' then -n else n
    if clamped n = n then some n else none

/-- What a word means to a condition. -/
inductive ConditionWord where
  | nothing
  | operand
  | unary
  | binary
  | not
  | and
  | or
  | opening
  | closing
  deriving DecidableEq

/-- The operators that ask something of one operand. -/
def unaryOperators : List Text :=
  ["-r", "-w", "-x", "-e", "-f", "-d", "-c", "-b", "-p", "-u", "-g", "-k",
   "-s", "-t", "-z", "-n", "-h", "-L", "-O", "-G", "-S"].map String.toList

/-- The operators between two operands. -/
def binaryOperators : List Text :=
  ["=", "!=", "<", ">", "-eq", "-ne", "-ge", "-gt", "-le", "-lt", "-nt", "-ot",
    "-ef"].map
    String.toList

/-- What a word means by itself. -/
def ConditionWord.ofText (t : Text) : ConditionWord :=
  if unaryOperators.contains t then .unary
  else if binaryOperators.contains t then .binary
  else
    match String.ofList t with
    | "!" => .not
    | "-a" => .and
    | "-o" => .or
    | "(" => .opening
    | ")" => .closing
    | _ => .operand

/-- What the first of some words means in front of the others. -/
def ConditionWord.ofWords : List Text → ConditionWord
  | [] => .nothing
  | t :: rest =>
    match ConditionWord.ofText t, rest with
    | .unary, [] => .operand
    | .unary, [_] => .unary
    | .unary, next :: _ =>
        if ConditionWord.ofText next = .binary then .operand else .unary
    | .opening, [] => .operand
    | kind, _ => kind

/-- How two numbers compare, if the operator compares numbers. -/
def compareNumbers? (operator : Text) (a b : Int) : Option Bool :=
  match String.ofList operator with
  | "-eq" => some (a == b)
  | "-ne" => some (a != b)
  | "-lt" => some (decide (a < b))
  | "-le" => some (decide (a ≤ b))
  | "-gt" => some (decide (b < a))
  | "-ge" => some (decide (b ≤ a))
  | _ => none

section Conditions

variable {m : Type → Type} [Monad m] [FileTree m]

/-- A condition that cannot be judged gives the reason. -/
abbrev Judgement (m : Type → Type) := ExceptT Text (Eval m)

/-- The number that a compared text has to spell. -/
def comparedNumber (t : Text) : Judgement m Int :=
  match decimal? t with
  | some n => return n
  | none => throw ("Illegal number: ".toList ++ t)

/-- Does anything stand at a path? -/
def exists_ (p : Path) : Judgement m Bool :=
  return (← ExceptT.lift (entryAt p)).isOk

/-- How two operands compare. -/
def compareOperands (operator a b : Text) : Judgement m Bool := do
  match String.ofList operator with
  | "=" => return a == b
  | "!=" => return a != b
  | "<" => return compare a b == .lt
  | ">" => return compare b a == .lt
  | "-nt" => return (← exists_ a) && !(← exists_ b)
  | "-ot" => return !(← exists_ a) && (← exists_ b)
  | "-ef" =>
    let isSame := (← ExceptT.lift (placeOf a)) == (← ExceptT.lift (placeOf b))
    return isSame && (← exists_ a)
  | _ =>
      return (compareNumbers? operator (← comparedNumber a)
        (← comparedNumber b)).getD false

/-- What an operand is like. -/
def inspect (operator operand : Text) : Judgement m Bool := do
  let entry ← ExceptT.lift (entryAt operand)
  let isDevice := "/dev/".toList.isPrefixOf operand
  match String.ofList operator with
  | "-n" => return !operand.isEmpty
  | "-z" => return operand.isEmpty
  | "-e" => return entry.isOk
  | "-r" => return entry.isOk
  | "-w" => return entry.isOk
  | "-O" => return entry.isOk
  | "-G" => return entry.isOk
  | "-x" =>
    return entry.toOption == some .directory
      || (← ExceptT.lift (isStartable operand))
  | "-d" => return entry.toOption == some .directory
  | "-c" => return entry.isOk && isDevice
  | "-f" => return !isDevice && (match entry with
      | .ok (.file _) => true
      | _ => false)
  | "-s" => return (match entry with
      | .ok (.file size) => decide (0 < size)
      | .ok .directory => true
      | _ => false)
  | "-t" =>
    let _ ← comparedNumber operand
    return false
  | _ => return false

mutual

/-- Conditions of which one has to hold. -/
def anyCondition :
    Nat → ConditionWord → List Text → Judgement m (Bool × List Text)
  | 0, _, words => return (false, words)
  | budget + 1, kind, words => do
    let (first, words) ← allConditions budget kind words
    if ConditionWord.ofWords (words.drop 1) = .or then
      let words := words.drop 2
      let (second, words) ← anyCondition budget (.ofWords words) words
      return (first || second, words)
    else return (first, words)

/-- Conditions that all have to hold. -/
def allConditions :
    Nat → ConditionWord → List Text → Judgement m (Bool × List Text)
  | 0, _, words => return (false, words)
  | budget + 1, kind, words => do
    let (first, words) ← negatedCondition budget kind words
    if ConditionWord.ofWords (words.drop 1) = .and then
      let words := words.drop 2
      let (second, words) ← allConditions budget (.ofWords words) words
      return (first && second, words)
    else return (first, words)

/-- A condition after exclamation marks. -/
def negatedCondition :
    Nat → ConditionWord → List Text → Judgement m (Bool × List Text)
  | 0, _, words => return (false, words)
  | budget + 1, kind, words => do
    if kind = .not then
      let next := ConditionWord.ofWords (words.drop 1)
      let words := if next = .nothing then words else words.drop 1
      let (holds, words) ← negatedCondition budget next words
      return (!holds, words)
    else primaryCondition budget kind words

/-- A condition that no operator joins. -/
def primaryCondition :
    Nat → ConditionWord → List Text → Judgement m (Bool × List Text)
  | 0, _, words => return (false, words)
  | budget + 1, kind, words => do
    match kind, words with
    | .nothing, words => return (false, words)
    | .opening, _ :: words =>
      let next := ConditionWord.ofWords words
      if next = .closing then return (false, words)
      let (holds, words) ← anyCondition budget next words
      if ConditionWord.ofWords (words.drop 1) ≠ .closing then
        throw "closing paren expected".toList
      return (holds, words.drop 1)
    | .unary, operator :: rest =>
      match rest with
      | [] => throw (operator ++ ": argument expected".toList)
      | operand :: _ => return (← inspect operator operand, rest)
    | _, a :: rest =>
      if ConditionWord.ofWords rest = .binary then
        match rest with
        | operator :: b :: more =>
            return (← compareOperands operator a b, b :: more)
        | _ => throw (rest.headD [] ++ ": argument expected".toList)
      else return (!a.isEmpty, a :: rest)
    | _, [] => return (false, [])

end

/-- Is the condition true? One of three words with an operator in the middle
compares, whatever else its words could mean. -/
def condition (words : List Text) : Judgement m Bool := do
  if words.isEmpty then return false
  let isBinary (t : Text) : Bool := ConditionWord.ofText t = .binary
  let comparesMiddle :=
    words.length = 3 && ((words[1]?).map isBinary).getD false
  let isEnclosed :=
    !comparesMiddle && (words.length = 3 || words.length = 4) &&
    words.head? = some ['('] && words.getLast? = some [')']
  let words := if isEnclosed then (words.drop 1).dropLast else words
  let kind := if comparesMiddle then .operand else ConditionWord.ofWords words
  let (holds, words) ← anyCondition (4 * words.length + 8) kind words
  match words with
  | t :: _ :: _ =>
      throw
        ((if t.isEmpty then t else t ++ ": ".toList)
          ++ "unexpected operator".toList)
  | _ => return holds

end Conditions

end GridScript.Shell
