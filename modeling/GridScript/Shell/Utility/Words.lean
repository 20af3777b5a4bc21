/-
Programs that look at their arguments only: they print or judge words, look
up names, calculate, or wait.
-/
import GridScript.Shell.Condition
import GridScript.Shell.Format
import GridScript.Shell.Search
import GridScript.Shell.Utility.Tree

namespace GridScript.Shell

section Utilities

variable {m : Type → Type} [Monad m] [FileTree m]

-- ======================================================== printing words

/-- Prints words. -/
def echo : Utility m := fun _ arguments => do
  emit 1 (.ofBytes (programEchoBytes false true arguments))
  return 0

/-- Prints by a format, as a program. -/
def printfProgram : Utility m := fun self arguments => do
  match arguments.dropWhile (· == "--".toList) with
  | [] => misused self 1 "missing operand".toList
  | format :: arguments =>
    let p := Printed.ofFormat .programFormat format arguments
    emit 1 (.ofBytes p.out)
    for fault in p.faults do protest self fault.programMessage
    match p.failure with
    | some fault =>
      protest self fault.programMessage
      return 1
    | none =>
      if let (false, t :: _) := (p.stopped, p.arguments) then
        protest self
          ("warning: ignoring excess arguments, starting with ".toList
            ++ quotedWord t)
      return okStatus p.faults.isEmpty

/-- Does nothing, and ends with a status. -/
def constantly (status : Nat) : Utility m := fun self arguments => do
  match arguments with
  | [t] =>
    if t = "--help".toList then
      emitLines 1
        ["Usage: ".toList ++ self
          ++ " [ignored command line arguments]".toList]
    if t = "--version".toList then emitLines 1 [self ++ " 9.4".toList]
    return status
  | _ => return status

-- ======================================================== parts of paths

/-- Prints the last names of paths, without an ending if they have it. -/
def basename : Utility m :=
  withOptions
    { OptionTable.of "as:z"
      [("multiple", 'a'), ("suffix", 's'), ("zero", 'z')] with
      mixes := false } 1 fun self r => do
  let end_ := if r.has 'z' then '\x00' else '\n'
  let cut (ending : Text) (p : Path) : Text :=
    let name := lastName p
    if ending.length < name.length
        && ending.reverse.isPrefixOf name.reverse then
      name.take (name.length - ending.length) ++ [end_]
    else name ++ [end_]
  let several := r.has 'a' || r.has 's'
  match r.operands with
  | [] => misused self 1 "missing operand".toList
  | first :: rest =>
    if several then
      emitText 1 (r.operands.flatMap (cut ((r.operand? 's').getD [])))
      return 0
    match rest with
    | _ :: extra :: _ =>
        misused self 1 ("extra operand ".toList ++ quotedWord extra)
    | _ =>
      emitText 1 (cut (rest.headD []) first)
      return 0

/-- A path without its last name. -/
def directoryOf (p : Path) : Path :=
  match Text.cutAtLast? '/' (withoutSlashes p) with
  | some (before, _) => withoutSlashes (before ++ ['/'])
  | none => ['.']

/-- Prints paths without their last names. -/
def dirname : Utility m :=
  withOptions (OptionTable.of "z" [("zero", 'z')]) 1 fun self r => do
  if r.operands.isEmpty then return ← misused self 1 "missing operand".toList
  let end_ := if r.has 'z' then '\x00' else '\n'
  emitText 1 (r.operands.flatMap fun p => directoryOf p ++ [end_])
  return 0

/-- Prints the directory. -/
def pwd : Utility m :=
  withOptions (OptionTable.of "LP" [("logical", 'L'), ("physical", 'P')]) 1
    fun self r => do
  if !r.operands.isEmpty then
    protest self "ignoring non-option arguments".toList
  emitLines 1 [(← get).directory]
  return 0

-- ======================================================== surroundings

/-- Prints what the system is called. -/
def uname : Utility m :=
  withOptions
    (OptionTable.of "asnrvmpio"
      [("all", 'a'), ("kernel-name", 's'), ("machine", 'm'),
    ("operating-system", 'o')]) 1 fun self r => do
  if let some extra := r.operands.head? then
    return ← misused self 1 ("extra operand ".toList ++ quotedWord extra)
  let asked := if r.options.isEmpty then ['s'] else r.options.map (·.letter)
  let names : List (Char × String) :=
    [('s', "Linux"), ('m', "x86_64"), ('o', "GNU/Linux")]
  let shown :=
    names.filter fun (c, _) => asked.contains c || asked.contains 'a'
  emitLines 1 [Text.joinWith [' '] (shown.map fun (_, name) => name.toList)]
  return 0

/-- The variables that programs are given, in order. -/
def environment (s : Machine) : List (Text × Text) :=
  s.bindings.filter fun (name, _) => s.exported.contains name

/-- Prints variables. -/
def printenv : Utility m :=
  withOptions { OptionTable.of "0" [("null", '0')] with mixes := false } 2
    fun _ r => do
  let given := environment (← get)
  let end_ := if r.has '0' then '\x00' else '\n'
  if r.operands.isEmpty then
    emitText 1 (given.flatMap fun (name, v) => name ++ '=' :: v ++ [end_])
    return 0
  let found := r.operands.map fun name => given.lookup name
  emitText 1 (found.flatMap fun v => (v.map (· ++ [end_])).getD [])
  return okStatus (found.all Option.isSome)

/-- Prints the files that names start. -/
def which : Utility m := fun self arguments => do
  let table : OptionTable := { OptionTable.of "as" [] with mixes := false }
  match table.read arguments with
  | .error fault =>
    emitLines 2 [fault.shellMessage]
    let place := if self.contains '/' then self else "/usr/bin/".toList ++ self
    emitLines 1 ["Usage: ".toList ++ place ++ " [-as] args".toList]
    return 2
  | .ok r =>
    let directories :=
      directoriesIn (((← get).bindings.lookup "PATH".toList).getD [])
    let mut fine := !r.operands.isEmpty
    for name in r.operands do
      let places :=
        if name.contains '/' then [name] else directories.map (placeIn · name)
      let found ← places.filterM isStartable
      if found.isEmpty then fine := false
      if !r.has 's' then
        emitLines 1 (if r.has 'a' then found else found.take 1)
    return okStatus fine

-- ======================================================== time

/-- The milliseconds of a number with a unit behind it; none that count for
one that is infinite. -/
def timeSpan? (t : Text) : Option (Option Nat) :=
  let r := fractionAtStart t
  let unit? : Option Nat := match r.rest with
    | [] => some 1000
    | ['s'] => some 1000
    | ['m'] => some 60000
    | ['h'] => some 3600000
    | ['d'] => some 86400000
    | _ => none
  if !r.found then none
  else
    match r.value, unit? with
    | .infinite false, some _ => some none
    | .finite false rank, some unit =>
      let (num, den) := (Double.magnitude rank).ratio
      some (some ((num * unit + den - 1) / den))
    | _, _ => none

/-- Waits. -/
def sleep : Utility m :=
  withOptions (OptionTable.of "" []) 1 fun self r => do
  if r.operands.isEmpty then return ← misused self 1 "missing operand".toList
  match r.operands.filter fun t => (timeSpan? t).isNone with
  | [] =>
    for t in r.operands do
      match timeSpan? t with
      | some (some millis) => pass millis
      | _ => throw .unfinished
    return 0
  | wrong =>
    for t in wrong do
      protest self ("invalid time interval ".toList ++ quotedWord t)
    emitText 2
      ("Try '".toList ++ self ++ " --help' for more information.\n".toList)
    return 1

-- ======================================================== conditions

/-- The operators between two operands that programs know. -/
def programOperators : List Text :=
  ["=", "==", "!=", "-eq", "-ne", "-ge", "-gt", "-le", "-lt", "-nt", "-ot",
    "-ef"].map
    String.toList

namespace ProgramCondition

/-- Does the word stand between two operands? -/
def isBinary (t : Text) : Bool := programOperators.contains t

/-- Does the word ask something of one operand? -/
def isUnary (t : Text) : Bool := unaryOperators.contains t

/-- The complaint that words end too early. -/
def endsEarly (words : List Text) : Judgement m (Bool × List Text) :=
  throw ("missing argument after ".toList ++ quotedWord (words.getLastD []))

/-- The wording of programs in place of the shell's. -/
def inProgram (act : Judgement m Bool) : Judgement m Bool := do
  match ← ExceptT.lift act.run with
  | .ok b => return b
  | .error reason =>
    match Text.afterStart? "Illegal number: ".toList reason with
    | some t => throw ("invalid integer ".toList ++ quotedWord t)
    | none => throw reason

/-- What is between two operands, or in front of one, or one by itself. -/
def simple (words : List Text) : Judgement m (Bool × List Text) := do
  match words with
  | a :: operator :: b :: rest =>
    if isBinary operator then
      let operator := if operator = "==".toList then ['='] else operator
      return (← inProgram (compareOperands operator a b), rest)
    else if isUnary a then return (← inProgram (inspect a operator), b :: rest)
    else return (!a.isEmpty, operator :: b :: rest)
  | [a, b] =>
      if isUnary a then return (← inProgram (inspect a b), [])
      else return (!a.isEmpty, [b])
  | [a] => return (!a.isEmpty, [])
  | [] => return (false, [])

mutual

/-- A condition of so many words. -/
def counted : Nat → Nat → List Text → Judgement m (Bool × List Text)
  | 0, _, words => return (false, words)
  | budget + 1, count, words => do
    match count, words with
    | 1, a :: rest => return (!a.isEmpty, rest)
    | 2, a :: b :: rest =>
      if a = ['!'] then return (b.isEmpty, rest)
      else if a.head? = some '-' && a.length = 2 then
        if isUnary a then return (← inProgram (inspect a b), rest)
        else throw (quotedWord a ++ ": unary operator expected".toList)
      else endsEarly words
    | 3, a :: b :: c :: rest =>
      if isBinary b then
        let (holds, _) ← simple [a, b, c]
        return (holds, rest)
      else if a = ['!'] then
        let (holds, rest) ← counted budget 2 (b :: c :: rest)
        return (!holds, rest)
      else if a = ['('] && c = [')'] then return (!b.isEmpty, rest)
      else if b = "-a".toList || b = "-o".toList then any budget words
      else throw (quotedWord b ++ ": binary operator expected".toList)
    | 4, a :: b :: c :: d :: rest =>
      if a = ['!'] then
        let (holds, rest) ← counted budget 3 (b :: c :: d :: rest)
        return (!holds, rest)
      else if a = ['('] && d = [')'] then
        let (holds, _) ← counted budget 2 [b, c]
        return (holds, rest)
      else any budget words
    | _, words => any budget words

/-- Conditions of which one has to hold. -/
def any : Nat → List Text → Judgement m (Bool × List Text)
  | 0, words => return (false, words)
  | budget + 1, words => do
    let (first, rest) ← all budget words
    match rest with
    | ['-', 'o'] :: rest =>
      if rest.isEmpty then endsEarly words
      else
        let (second, rest) ← any budget rest
        return (first || second, rest)
    | rest => return (first, rest)

/-- Conditions that all have to hold. -/
def all : Nat → List Text → Judgement m (Bool × List Text)
  | 0, words => return (false, words)
  | budget + 1, words => do
    let (first, rest) ← term budget words
    match rest with
    | ['-', 'a'] :: rest =>
      if rest.isEmpty then endsEarly words
      else
        let (second, rest) ← all budget rest
        return (first && second, rest)
    | rest => return (first, rest)

/-- A condition that no operator joins. -/
def term : Nat → List Text → Judgement m (Bool × List Text)
  | 0, words => return (false, words)
  | budget + 1, words => do
    match words with
    | ['!'] :: rest =>
      if rest.isEmpty then endsEarly words
      else
        let (holds, rest) ← term budget rest
        return (!holds, rest)
    | ['('] :: rest =>
      if rest.isEmpty then endsEarly words
      else
        let inside := rest.takeWhile (· != [')'])
        let count := if 4 ≤ inside.length then rest.length else inside.length
        let (holds, rest) ← counted budget count rest
        match rest with
        | [')'] :: rest => return (holds, rest)
        | found :: _ => throw ("')' expected, found ".toList ++ found)
        | [] => throw "')' expected".toList
    | words => simple words

end

end ProgramCondition

/-- Judges a condition. -/
def test : Utility m := fun self words => do
  let judgement : Judgement m (Bool × List Text) :=
    ProgramCondition.counted (8 * words.length + 8) words.length words
  match ← judgement.run with
  | .ok (holds, []) => return okStatus (holds && !words.isEmpty)
  | .ok (_, extra :: _) =>
    protest self ("extra argument ".toList ++ quotedWord extra)
    return 2
  | .error reason =>
    protest self reason
    return 2

/-- Judges a condition in brackets. -/
def testInBrackets : Utility m := fun self words => do
  if words.getLast? = some [']'] then test self words.dropLast
  else
    protest self "missing ']'".toList
    return 2

-- ======================================================== expr

/-- What is wrong with the words of a calculation. -/
inductive CalculationFault where
  | missingArgument
  | unexpectedClosing
  | missingClosing (found : Option Text)
  | notInteger
  | divisionByZero
  | search (e : SearchError)
  deriving DecidableEq

/-- The wording of a fault; the last word tells where the words end. -/
def CalculationFault.message (last : Text) : CalculationFault → Text
  | missingArgument =>
      "syntax error: missing argument after ".toList ++ quotedWord last
  | unexpectedClosing => "syntax error: unexpected ')'".toList
  | missingClosing none =>
      "syntax error: expecting ')' after ".toList ++ quotedWord last
  | missingClosing (some t) =>
      "syntax error: expecting ')' instead of ".toList ++ quotedWord t
  | notInteger => "non-integer argument".toList
  | divisionByZero => "division by zero".toList
  | search e => e.message

namespace Calculation

/-- The integer that a word spells. -/
def integer? (t : Text) : Option Int :=
  let digits := if t.head? = some '-' then t.drop 1 else t
  if !Number.isDigits digits then none
  else
    let n : Int := Number.ofDigits 0 digits
    some (if t.head? = some '-' then -n else n)

/-- Does the word count as nothing? -/
def isNull (t : Text) : Bool := t.isEmpty || integer? t = some 0

/-- The word for a truth value. -/
def truth (b : Bool) : Text := if b then ['1'] else ['0']

/-- What a text has at its beginning that an expression matches: how much,
or what its group matched. -/
def matched (t source : Text) : Except CalculationFault Text :=
  match SearchExpression.read false source with
  | .error e => .error (.search e)
  | .ok e =>
    let hasGroup := Text.hasPart "\\(".toList source
    match e.longest? ⟨[], t, []⟩ with
    | some q =>
      .ok (if hasGroup then (q.groups.lookup 1).getD []
        else Number.decimal q.offset)
    | none => .ok (if hasGroup then [] else ['0'])

/-- The value of an operation. -/
def operate (operator a b : Text) : Except CalculationFault Text := do
  let numbers : Except CalculationFault (Int × Int) :=
    match integer? a, integer? b with
    | some x, some y => .ok (x, y)
    | _, _ => .error .notInteger
  let order : Ordering := match integer? a, integer? b with
    | some x, some y => compare x y
    | _, _ => compare a b
  match String.ofList operator with
  | "+" => return Number.integer ((← numbers).1 + (← numbers).2)
  | "-" => return Number.integer ((← numbers).1 - (← numbers).2)
  | "*" => return Number.integer ((← numbers).1 * (← numbers).2)
  | "/" =>
    let (x, y) ← numbers
    if y = 0 then throw .divisionByZero
    else return Number.integer (Int.tdiv x y)
  | "%" =>
    let (x, y) ← numbers
    if y = 0 then throw .divisionByZero
    else return Number.integer (Int.tmod x y)
  | "<" => return truth (order == .lt)
  | "<=" => return truth (order != .gt)
  | "=" => return truth (order == .eq)
  | "==" => return truth (order == .eq)
  | "!=" => return truth (order != .eq)
  | ">=" => return truth (order != .lt)
  | ">" => return truth (order == .gt)
  | ":" => matched a b
  | "&" => return if isNull a || isNull b then ['0'] else a
  | "|" => return if !isNull a then a else if isNull b then ['0'] else b
  | _ => return b

/-- The operators of each strength, the weakest first. -/
def operators : List (List Text) :=
  [["|"], ["&"], ["<", "<=", "=", "==", "!=", ">=", ">"], ["+", "-"],
    ["*", "/", "%"], [":"]].map
    (·.map String.toList)

/-- The part of a text from a position, counted from one, with a length. -/
def part (t position length : Text) : Text :=
  match integer? position, integer? length with
  | some p, some n =>
      if 0 < p && 0 < n then (t.drop (p.toNat - 1)).take n.toNat else []
  | _, _ => []

/-- The position of the first character of a set, counted from one. -/
def indexOf (t set : Text) : Text :=
  match t.findIdx? set.contains with
  | some n => Number.decimal (n + 1)
  | none => ['0']

mutual

/-- The value of the operations of a strength or stronger ones, and the
words after them. What does not count is read, but not calculated. -/
def value :
    Nat → Nat → Bool → List Text → Except CalculationFault (Text × List Text)
  | 0, _, _, _ => .error .missingArgument
  | budget + 1, strength, counts, words => do
    if operators.length ≤ strength then primary budget counts words
    else
      let (a, rest) ← value budget (strength + 1) counts words
      valueAfter budget strength counts a rest

/-- The value of what follows a value. -/
def valueAfter :
    Nat → Nat → Bool → Text → List Text →
      Except CalculationFault (Text × List Text)
  | 0, _, _, a, words => .ok (a, words)
  | budget + 1, strength, counts, a, words => do
    match words with
    | [] => return (a, [])
    | operator :: rest =>
      if !(operators.getD strength []).contains operator then return (a, words)
      let secondCounts := counts &&
        (if operator = ['|'] then isNull a
          else if operator = ['&'] then !isNull a else true)
      let (b, rest) ← value budget (strength + 1) secondCounts rest
      let c ← if counts then operate operator a b else .ok a
      valueAfter budget strength counts c rest

/-- The value of a word, of what is in parentheses, or of a function. -/
def primary :
    Nat → Bool → List Text → Except CalculationFault (Text × List Text)
  | 0, _, _ => .error .missingArgument
  | budget + 1, counts, words => do
    match words with
    | [] => throw .missingArgument
    | word :: rest =>
      match String.ofList word with
      | "+" =>
        match rest with
        | [] => throw .missingArgument
        | t :: rest => return (t, rest)
      | "length" =>
        let (t, rest) ← primary budget counts rest
        return (Number.decimal (Text.byteLength t), rest)
      | "match" =>
        let (t, rest) ← primary budget counts rest
        let (source, rest) ← primary budget counts rest
        return (← if counts then matched t source else .ok [], rest)
      | "index" =>
        let (t, rest) ← primary budget counts rest
        let (set, rest) ← primary budget counts rest
        return (indexOf t set, rest)
      | "substr" =>
        let (t, rest) ← primary budget counts rest
        let (position, rest) ← primary budget counts rest
        let (length, rest) ← primary budget counts rest
        return (part t position length, rest)
      | "(" =>
        let (t, rest) ← value budget 0 counts rest
        match rest with
        | [')'] :: rest => return (t, rest)
        | found :: _ => throw (.missingClosing (some found))
        | [] => throw (.missingClosing none)
      | ")" => throw .unexpectedClosing
      | _ => return (word, rest)

end

end Calculation

/-- Prints the value of a calculation. -/
def expr : Utility m := fun self arguments => do
  let words :=
    if arguments.head? = some "--".toList then arguments.drop 1 else arguments
  if words.isEmpty then return ← misused self 2 "missing operand".toList
  match Calculation.value (16 * words.length + 16) 0 true words with
  | .error fault =>
    protest self (fault.message (words.getLastD []))
    return 2
  | .ok (_, extra :: _) =>
    protest self
      ("syntax error: unexpected argument ".toList ++ quotedWord extra)
    return 2
  | .ok (t, []) =>
    emitLines 1 [t]
    return okStatus (!Calculation.isNull t)

end Utilities

end GridScript.Shell
