/-
Options among the arguments of a command: letters after a dash, some of them
with an operand, and in programs also words after two dashes, which can be
shortened. What is left are the operands. In most programs operands can
stand in front of options; the commands of the shell, and programs that
start others, read no option after an operand.
-/
import GridScript.Text.Basic

namespace GridScript.Shell

/-- The options that a command knows. -/
structure OptionTable where
  /-- The letters; a colon follows one that takes an operand, and two if
  the operand has to be attached or is missing. -/
  letters : Text
  /-- The words, by the letter that each of them stands for. -/
  words : List (Text × Char)
  /-- Letters that only words stand for; a colon follows as above. -/
  silent : Text
  /-- Can operands stand in front of options? -/
  mixes : Bool

namespace OptionTable

/-- The table of some letters and words. -/
def of (letters : String) (words : List (String × Char)) : OptionTable where
  letters := letters.toList
  words := words.map fun (word, letter) => (word.toList, letter)
  silent := []
  mixes := true

/-- Does an option take an operand, among letters? None if it is not one of
them. -/
def takesOperand? (letters : Text) (c : Char) : Option Bool :=
  if c = ':' then none
  else
    match letters.dropWhile (· != c) with
    | _ :: ':' :: _ => some true
    | _ :: _ => some false
    | [] => none

/-- Can the operand of an option be missing, among letters? -/
def canLackOperand (letters : Text) (c : Char) : Bool :=
  match letters.dropWhile (· != c) with
  | _ :: ':' :: ':' :: _ => true
  | _ => false

end OptionTable

/-- An option that was given, and its operand. -/
structure GivenOption where
  letter : Char
  operand : Text
  deriving DecidableEq

/-- What is wrong with options. -/
inductive OptionFault where
  | unknown (letter : Char)
  | unknownWord (t : Text)
  | missing (letter : Char)
  | missingWord (word : Text)
  | needless (word : Text)
  | ambiguous (t : Text) (words : List Text)
  deriving DecidableEq

/-- The letter as messages show it, which have room for a single byte. -/
def shownLetter (c : Char) : Char := if c.toNat < 128 then c else '\uFFFD'

/-- The wording of programs. -/
def OptionFault.message : OptionFault → Text
  | unknown c => "invalid option -- '".toList ++ [shownLetter c, '\'']
  | unknownWord t => "unrecognized option '".toList ++ t ++ ['\'']
  | missing c => "option requires an argument -- '".toList ++ [c, '\'']
  | missingWord word =>
      "option '--".toList ++ word ++ "' requires an argument".toList
  | needless word =>
      "option '--".toList ++ word ++ "' doesn't allow an argument".toList
  | ambiguous t words =>
    "option '".toList ++ t ++ "' is ambiguous; possibilities:".toList ++
      words.flatMap fun word => " '--".toList ++ word ++ ['\'']

/-- The wording of the shell. -/
def OptionFault.shellMessage : OptionFault → Text
  | missing c => "No arg for -".toList ++ c :: " option".toList
  | unknown c => "Illegal option -".toList ++ [shownLetter c]
  | _ => "Illegal option --".toList

/-- The options and operands that were read. -/
structure OptionsRead where
  options : List GivenOption
  operands : List Text

namespace OptionsRead

/-- Is an option among those given? -/
def has (r : OptionsRead) (letter : Char) : Bool :=
  r.options.any (·.letter == letter)

/-- The operand of an option as it was given last. -/
def operand? (r : OptionsRead) (letter : Char) : Option Text :=
  (r.options.reverse.find? (·.letter == letter)).map (·.operand)

/-- The one of some options that was given last. -/
def lastOf? (r : OptionsRead) (letters : Text) : Option Char :=
  (r.options.reverse.find? fun o => letters.contains o.letter).map (·.letter)

/-- One more option in front. -/
def addOption (o : GivenOption) (r : OptionsRead) : OptionsRead :=
  { r with options := o :: r.options }

/-- One more operand in front. -/
def addOperand (t : Text) (r : OptionsRead) : OptionsRead :=
  { r with operands := t :: r.operands }

end OptionsRead

/-- The option of a word, with what follows it after an equals sign. -/
def OptionTable.ofWord (table : OptionTable) (t : Text) :
    Except OptionFault (Text × Char × Option Text) :=
  let (word, operand) := match Text.cutAtFirst? '=' t with
    | some (word, operand) => (word, some operand)
    | none => (t, none)
  let written := "--".toList ++ t
  match table.words.find? (·.1 == word) with
  | some (word, letter) => .ok (word, letter, operand)
  | none =>
    match table.words.filter fun known => word.isPrefixOf known.1 with
    | [] => .error (.unknownWord written)
    | (known, letter) :: others =>
      if others.all (·.2 == letter) then .ok (known, letter, operand)
      else
        .error
          (.ambiguous ("--".toList ++ word)
            ((known, letter) :: others |>.map (·.1)))

/-- The letters of one argument, and the arguments after it. A letter that
takes an operand takes the rest of the argument, or the next argument. -/
def OptionTable.readLetters (table : OptionTable) :
    Text → List Text → Except OptionFault (List GivenOption × List Text)
  | [], rest => .ok ([], rest)
  | c :: cs, rest => do
    match OptionTable.takesOperand? table.letters c with
    | none => throw (.unknown c)
    | some false =>
      let (more, rest) ← table.readLetters cs rest
      return (⟨c, []⟩ :: more, rest)
    | some true =>
      if OptionTable.canLackOperand table.letters c then
        return ([⟨c, cs⟩], rest)
      match cs, rest with
      | [], [] => throw (.missing c)
      | [], operand :: rest => return ([⟨c, operand⟩], rest)
      | operand, rest => return ([⟨c, operand⟩], rest)

/-- The options and operands among arguments. The budget bounds the number
of arguments. -/
def OptionTable.readWithin (table : OptionTable) :
    Nat → List Text → Except OptionFault OptionsRead
  | 0, rest => .ok ⟨[], rest⟩
  | _, [] => .ok ⟨[], []⟩
  | budget + 1, argument :: rest => do
    match argument with
    | ['-', '-'] => return ⟨[], rest⟩
    | '-' :: '-' :: t =>
      if table.words.isEmpty then throw (.unknown '-')
      let (word, letter, operand) ← table.ofWord t
      let letters := table.letters ++ table.silent
      let takes := (OptionTable.takesOperand? letters letter).getD false
      if operand.isNone && OptionTable.canLackOperand letters letter then
        return (← table.readWithin budget rest).addOption ⟨letter, []⟩
      match takes, operand, rest with
      | false, some _, _ => throw (.needless word)
      | false, none, rest =>
          return (← table.readWithin budget rest).addOption ⟨letter, []⟩
      | true, some t, rest =>
          return (← table.readWithin budget rest).addOption ⟨letter, t⟩
      | true, none, t :: rest =>
          return (← table.readWithin budget rest).addOption ⟨letter, t⟩
      | true, none, [] => throw (.missingWord word)
    | '-' :: c :: cs =>
      let (given, rest) ← table.readLetters (c :: cs) rest
      return given.foldr .addOption (← table.readWithin budget rest)
    | operand =>
      if table.mixes then
        return (← table.readWithin budget rest).addOperand operand
      else return ⟨[], operand :: rest⟩

/-- The options and operands among arguments. -/
def OptionTable.read (table : OptionTable) (arguments : List Text) :
    Except OptionFault OptionsRead :=
  table.readWithin (arguments.length + 1) arguments

end GridScript.Shell
