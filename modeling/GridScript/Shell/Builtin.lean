/-
The commands of the shell itself, apart from those that run others: they
print, and read or change the state of the shell.
-/
import GridScript.Shell.Condition
import GridScript.Shell.Expansion
import GridScript.Shell.Format
import GridScript.Shell.Options
import GridScript.Shell.StatementReader

namespace GridScript.Shell

section Builtins

variable {m : Type → Type} [Monad m] [FileTree m]

/-- A command of the shell: from its arguments, what it does and its
status. -/
abbrev Builtin (m : Type → Type) := List Text → Eval m Nat

-- ======================================================== arguments

/-- The options and operands of a command; some letters take operands. -/
def optionsOf (letters : String) (arguments : List Text) :
    Eval m OptionsRead := do
  let table : OptionTable := { OptionTable.of letters [] with mixes := false }
  match table.read arguments with
  | .ok r => return r
  | .error fault => fail fault.shellMessage

/-- The number that an argument has to spell. -/
def numberOf (t : Text) : Eval m Nat := do
  match decimal? t with
  | some n =>
    if 0 ≤ n ∧ n < (Number.twoTo 31 : Nat) then return n.toNat
    else fail ("Illegal number: ".toList ++ t)
  | none => fail ("Illegal number: ".toList ++ t)

/-- Makes sure that a variable can have the name. -/
def checkName (name : Text) : Eval m Unit := do
  if !((name.head?.map Text.isWordStart).getD false
      && name.all Text.isWordChar) then
    fail (name ++ ": bad variable name".toList)

/-- The status of success or failure. -/
def statusOf (fine : Bool) : Nat := if fine then 0 else 1

-- ======================================================== control

/-- The status that a command is left with. -/
def leavingStatus (arguments : List Text) : Eval m Nat := do
  match arguments with
  | [] => return (← get).status
  | t :: _ => numberOf t

/-- Leaves loops, as many as are asked for and there are. -/
def leaveLoops (stop : Nat → Stop) : Builtin m := fun arguments => do
  let n ← match arguments with
    | [] => pure 1
    | t :: _ => do
      let n ← numberOf t
      if n = 0 then fail ("Illegal number: ".toList ++ t) else pure n
  let loops := (← get).loops
  if loops = 0 then return 0 else throw (stop (min n loops))

/-- Drops arguments of the shell. -/
def shift : Builtin m := fun arguments => do
  let n ← match arguments with
    | [] => pure 1
    | t :: _ => numberOf t
  let s ← get
  if s.arguments.length < n then fail "can't shift that many".toList
  set { s with arguments := s.arguments.drop n }
  return 0

/-- Judges a condition. -/
def judge : Builtin m := fun words => do
  match ← (condition words).run with
  | .ok true => return 0
  | .ok false => return 1
  | .error reason => fail reason

/-- Judges a condition in brackets. Only the first character of the last word
counts. -/
def judgeInBrackets : Builtin m := fun words => do
  match words.getLast? with
  | some (']' :: _) => judge words.dropLast
  | _ => fail "missing ]".toList

-- ======================================================== printing

/-- Prints by a format. -/
def printf : Builtin m := fun arguments => do
  let r ← optionsOf "" arguments
  match r.operands with
  | [] => fail "usage: printf format [arg ...]".toList
  | format :: arguments =>
    let p := Printed.ofFormat .format format arguments
    emit 1 (.ofBytes p.out)
    for fault in p.faults do complain fault.message
    match p.failure with
    | some fault => fail fault.message
    | none => return statusOf p.faults.isEmpty

/-- A text in quotes that a shell reads back. -/
def inQuotes (t : Text) : Text :=
  let isQuote (c : Char) : Bool := c == '\''
  let pieces := Text.splitOn '\'' t
  let quoted := pieces.map fun piece => if piece.isEmpty then []
      else '\'' :: piece ++ ['\'']
  if t.isEmpty then "''".toList
  else if t.all isQuote then '"' :: t ++ ['"']
  else Text.joinWith "\"'\"".toList quoted

/-- Prints variables, each after a word. -/
def showVariables (word : Text) (isShown : Text → Bool) : Eval m Unit := do
  let s ← get
  let unset := ((s.exported ++ s.protected_).eraseDups.filter fun name =>
    isShown name && (s.bindings.lookup name).isNone).map fun name => (name, [])
  let set_ := s.bindings.filterMap fun (name, v) =>
    if isShown name then some (name, '=' :: inQuotes v) else none
  let all :=
    (set_ ++ (if word.isEmpty then [] else unset)).mergeSort fun a b =>
    (compare a.1 b.1).isLE
  emitLines 1 (all.map fun (name, v) => word ++ name ++ v)

-- ======================================================== variables

/-- Declares variables, with values or without. -/
def declare (word : String) (mark : Text → Eval m Unit)
    (isMarked : Machine → Text → Bool) :
    Builtin m := fun arguments => do
  let r ← optionsOf "p" arguments
  if r.has 'p' || r.operands.isEmpty then
    let s ← get
    showVariables (word.toList ++ [' ']) (isMarked s)
    return 0
  for operand in r.operands do
    match Text.cutAtFirst? '=' operand with
    | some (name, v) =>
      checkName name
      setVariable name v
      mark name
    | none =>
      checkName operand
      mark operand
  return 0

/-- Declares variables that programs are started with. -/
def export_ : Builtin m :=
  declare "export" (fun name => modify fun s => { s with
      exported := s.exported.insert name })
    fun s name => s.exported.contains name

/-- Declares variables that keep their values. -/
def readonly : Builtin m :=
  declare "readonly" (fun name => modify fun s => { s with
      protected_ := s.protected_.insert name })
    fun s name => s.protected_.contains name

/-- Makes variables a function's own. -/
def local_ : Builtin m := fun arguments => do
  if (← get).hidden.isNone then fail "not in a function".toList
  for argument in arguments do
    let (name, v) := match Text.cutAtFirst? '=' argument with
      | some (name, v) => (name, some v)
      | none => (argument, none)
    if name != ['-'] then checkName name
    modify fun s =>
      let before :=
        if name = ['-'] then some s.options else s.bindings.lookup name
      { s with
        hidden :=
          some (⟨name, before, s.exported.contains name⟩ :: s.hidden.getD []) }
    if let some v := v then setVariable name v
  return 0

/-- Forgets variables or functions. -/
def unset : Builtin m := fun arguments => do
  let r ← optionsOf "vf" arguments
  for operand in r.operands do
    if r.lastOf? "vf".toList = some 'f' then
      modify fun s => { s with
          functions := s.functions.filter (·.1 != operand) }
    else
      let name := operand.takeWhile (· != '=')
      checkName name
      if (← get).protected_.contains name then
        fail (name ++ ": is read only".toList)
      restoreVariable name none
      modify fun s => { s with exported := s.exported.filter (· != name) }
  return 0

-- ==================================================== options of the shell

/-- The options by letter and name; the letters are in the order in which
they are shown. -/
def shellOptions : List (Char × Text) :=
  [('p', "privileged"), ('u', "nounset"), ('b', "notify"), ('a', "allexport"),
   ('C', "noclobber"), ('E', "emacs"), ('V', "vi"), ('v', "verbose"),
   ('x', "xtrace"),
   ('s', "stdin"), ('n', "noexec"), ('m', "monitor"), ('i', "interactive"),
   ('I', "ignoreeof"),
   ('f', "noglob"), ('e', "errexit")].map fun (letter, name) =>
     (letter, String.toList name)

/-- The letters with one of them on or off. -/
def withOption (letter : Char) (on : Bool) (options : Text) : Text :=
  (shellOptions.map (·.1)).filter fun c => if c = letter then on
    else options.contains c

/-- Why options cannot be set. -/
inductive OptionRefusal where
  | letter (c : Char)
  | name (t : Text)
  deriving DecidableEq

/-- The wording of a refusal. -/
def OptionRefusal.message : OptionRefusal → Text
  | letter c => "Illegal option -".toList ++ [c]
  | name t => "Illegal option -o ".toList ++ t

/-- The letter of an option's name. The last two names stand for nothing
that a letter does. -/
def optionLetter? (name : Text) : Option Char :=
  (shellOptions.find? (·.2 == name)).map (·.1)

/-- The options that letters set, and the arguments that are left: a letter
`o` takes the next argument for a name, if there is one. -/
def setLetters (on : Bool) :
    Text → List Text → Text → Except OptionRefusal (Text × List Text)
  | [], rest, options => .ok (options, rest)
  | 'o' :: cs, name :: rest, options =>
    match optionLetter? name with
    | some letter => setLetters on cs rest (withOption letter on options)
    | none =>
      if name = "nolog".toList ∨ name = "debug".toList then
        setLetters on cs rest options
      else .error (.name name)
  | 'o' :: cs, [], options => setLetters on cs [] options
  | c :: cs, rest, options =>
    if (shellOptions.map (·.1)).contains c then
      setLetters on cs rest (withOption c on options)
    else .error (.letter c)

/-- Prints the options and whether they are on. -/
def showOptions (asCommands : Bool) : Eval m Unit := do
  let s ← get
  let named := shellOptions.reverse.map fun (c, name) => (name, s.hasOption c)
  let all := (named.filter (·.1 != "privileged".toList)) ++
    [("privileged".toList, s.hasOption 'p'), ("nolog".toList, false),
      ("debug".toList, false)]
  if asCommands then
    emitLines 1 (all.map fun (name, on) =>
      "set ".toList ++ (if on then '-' else '+') :: "o ".toList ++ name)
  else
    emitLines 1 ("Current option settings".toList :: all.map fun (name, on) =>
      name ++ List.replicate (16 - name.length) ' '
        ++ (if on then "on" else "off").toList)

/-- Sets the options that letters say, in their order, and gives the arguments
that are left. A letter `o` without an argument shows the options. -/
def applyLetters (on : Bool) : Text → List Text → Eval m (List Text)
  | [], rest => return rest
  | c :: cs, rest => do
    if c = 'o' && rest.isEmpty then showOptions !on
    match setLetters on [c] rest (← get).options with
    | .ok (options, rest) =>
      modify fun s => { s with options := options }
      applyLetters on cs rest
    | .error refusal => fail refusal.message

/-- Sets options, and then arguments. The budget bounds the number of
arguments. -/
def setAll : Nat → List Text → Eval m Unit
  | 0, _ => return
  | budget + 1, arguments => do
    let replace (arguments : List Text) : Eval m Unit :=
      modify fun s => { s with arguments := arguments }
    match arguments with
    | [] => return
    | ['-', '-'] :: rest => replace rest
    | ['-'] :: rest =>
      modify fun s => { s with
          options := s.options.filter fun c => c != 'x' && c != 'v' }
      if !rest.isEmpty then replace rest
    | ('-' :: cs) :: rest => setAll budget (← applyLetters true cs rest)
    | ('+' :: cs) :: rest => setAll budget (← applyLetters false cs rest)
    | rest => replace rest

/-- Changes the shell's options or its arguments, or shows the variables. -/
def set_ : Builtin m := fun arguments => do
  if arguments.isEmpty then showVariables [] fun _ => true
  else setAll (arguments.length + 1) arguments
  return 0

-- ======================================================== reading

/-- A character that was read, and whether a backslash quoted it. -/
abbrev ReadChars := List Mark

/-- The line at the beginning of some characters with its backslashes taken
out, and whether it ended. A backslash joins lines. -/
def readLineMarks : Text → ReadChars × Bool
  | [] => ([], false)
  | '\n' :: _ => ([], true)
  | '\\' :: '\n' :: t => readLineMarks t
  | '\\' :: c :: t =>
    let (marks, ended) := readLineMarks t
    (⟨c, true⟩ :: marks, ended)
  | c :: t =>
    let (marks, ended) := readLineMarks t
    (⟨c, false⟩ :: marks, ended)

/-- How many backslashes stand directly in front of a position. -/
def backslashesBefore (bytes : ByteArray) : Nat → Nat
  | 0 => 0
  | n + 1 => if bytes.get! n = 92 then backslashesBefore bytes n + 1 else 0

/-- How many bytes the line takes up that begins at a position; a backslash
at its end joins it with the next one unless lines are raw. The budget
bounds the number of lines. -/
def lineSize (raw : Bool) (bytes : ByteArray) : Nat → Nat → Nat
  | 0, _ => bytes.size
  | budget + 1, start =>
    match bytes.findIdx? (· == 10) start with
    | none => bytes.size
    | some n =>
      if !raw && backslashesBefore bytes n % 2 = 1 then
        lineSize raw bytes budget (n + 1) else n + 1

/-- The values of variables that a line is split into; the last takes all
that is left. -/
def splitForRead (separators : Text) : Nat → ReadChars → List Text
  | 0, _ => []
  | n + 1, marks =>
    let isSeparator (mark : Mark) : Bool :=
      !mark.quoted && separators.contains mark.char
    let isBlank (mark : Mark) : Bool :=
      isSeparator mark && isSeparatingBlank mark.char
    let marks := marks.dropWhile isBlank
    let field := marks.takeWhile (!isSeparator ·)
    let after := (marks.drop field.length).dropWhile isBlank
    let rest := if (marks.drop field.length).head?.map isBlank = some true then
        if (after.head?.map isSeparator).getD false then after.drop 1
        else after
      else after.drop 1
    if n = 0 then
      let rest := rest.dropWhile isBlank
      if rest.isEmpty then [markText field]
      else [markText ((marks.reverse.dropWhile isBlank).reverse)]
    else markText field :: splitForRead separators n rest

/-- Reads a line into variables. -/
def readVariables : Builtin m := fun arguments => do
  let r ← optionsOf "p:r" arguments
  if r.operands.isEmpty then fail "arg count".toList
  let s ← get
  let assign (values : List Text) : Eval m Unit := do
    for (name, n) in r.operands.zipIdx do
      checkName name
      setVariable name (values.getD n [])
  match s.channels.lookup 0 with
  | some (.source n) =>
    let bytes := (s.sources.getD n .empty).bytes
    let size := lineSize (r.has 'r') bytes (bytes.size + 1) 0
    let line := (bytes.extract 0 size).toList
    let (marks, ended) := if r.has 'r' then
        ((Text.ofBytes (line.takeWhile (· != 10))).map (⟨·, false⟩),
          decide (line.getLast? = some 10))
      else readLineMarks (Text.ofBytes line)
    let rest := bytes.extract size bytes.size
    set { s with sources := s.sources.modify n fun _ => .ofBytes rest }
    assign (splitForRead (separators s) r.operands.length marks)
    return statusOf ended
  | _ =>
    assign []
    return 1

/-- The next option among arguments: what it is, its operand, the number of
the argument after it, how far the letters of one were used, and a
complaint. -/
def nextOption (table : Text) (arguments : List Text) (index used : Nat) :
    Option (Char × Option Text × Nat × Nat × Option Text) :=
  let quiet := table.head? = some ':'
  let current := arguments.getD (index - 2) []
  let left := if 1 < index && 0 < used then current.drop used else []
  let start : Option (Text × Nat × Nat) :=
    if !left.isEmpty then some (left, index, used)
    else
      match arguments[index - 1]? with
      | some ('-' :: c :: cs) =>
        if c = '-' && cs.isEmpty then none else some (c :: cs, index + 1, 1)
      | _ => none
  start.bind fun (letters, index, used) =>
    match letters with
    | [] => none
    | c :: cs =>
      let used := if cs.isEmpty then 0 else used + 1
      match OptionTable.takesOperand? (if quiet then table.drop 1 else table) c
        with
      | none =>
        if quiet then some ('?', some [c], index, used, none)
        else
          some
            ('?', none, index, used, some ("Illegal option -".toList ++ [c]))
      | some false => some (c, some [], index, used, none)
      | some true =>
        if !cs.isEmpty then some (c, some cs, index, 0, none)
        else
          match arguments[index - 1]? with
          | some operand => some (c, some operand, index + 1, 0, none)
          | none =>
            if quiet then some (':', some [c], index, 0, none)
            else
              some ('?', none, index, 0,
                some ("No arg for -".toList ++ c :: " option".toList))

/-- Reads the next option of the shell's arguments, or of others, into a
variable. -/
def getopts : Builtin m := fun arguments => do
  match arguments with
  | table :: name :: given =>
    let s ← get
    let given := if given.isEmpty then s.arguments else given
    let index :=
      ((s.bindings.lookup "OPTIND".toList).bind Number.wordOfDigits?).getD 1
    let used := if s.optionPlace.1 = index then s.optionPlace.2 else 0
    match nextOption table given index used with
    | some (c, operand, index, used, complaint) =>
      if let some t := complaint then emitText 2 (t ++ ['\n'])
      restoreVariable "OPTARG".toList operand
      setVariable "OPTIND".toList (Number.decimal index)
      checkName name
      setVariable name [c]
      modify fun s => { s with optionPlace := (index, used) }
      return 0
    | none =>
      let index :=
        if given[index - 1]? = some "--".toList then index + 1 else index
      setVariable "OPTIND".toList (Number.decimal index)
      checkName name
      setVariable name ['?']
      modify fun s => { s with optionPlace := (index, 0) }
      return 1
  | _ => fail "Usage: getopts optstring var [arg...]".toList

-- ======================================================== places

/-- The path without idle parts and steps up. -/
def tidyPath (p : Path) : Path :=
  match Path.wayFromRoot? p with
  | some names => '/' :: Text.joinWith ['/'] names
  | none => p

/-- Goes to another directory. -/
def changeDirectory : Builtin m := fun arguments => do
  let r ← optionsOf "LP" arguments
  let s ← get
  let (target, tells) := match r.operands with
    | [] => ((s.bindings.lookup "HOME".toList).getD [], false)
    | ['-'] :: _ => ((s.bindings.lookup "OLDPWD".toList).getD [], true)
    | t :: _ => (t, false)
  let target := if target.isEmpty then ['.'] else target
  match ← entryAt target with
  | .ok .directory =>
    let place := tidyPath (Path.join s.directory target)
    restoreVariable "OLDPWD".toList (some s.directory)
    restoreVariable "PWD".toList (some place)
    modify fun s => { s with
      directory := place
      exported := (s.exported.insert "OLDPWD".toList).insert "PWD".toList }
    if tells then emitLines 1 [place]
    return 0
  | found =>
    let reason := match found with
      | .error e => e
      | .ok _ => .notDirectory
    fail (← worded ("can't cd to ".toList ++ target)
      (target ++ ": ".toList ++ reasonText reason))

/-- Prints the directory. -/
def printDirectory : Builtin m := fun arguments => do
  let _ ← optionsOf "LP" arguments
  emitLines 1 [(← get).directory]
  return 0

-- ================================================== permissions and limits

/-- The permissions that a symbolic mask leaves, by owner. -/
def symbolicMask (mask : Nat) : Text :=
  let letters (n : Nat) : Text :=
    (if n / 4 % 2 = 0 then ['r'] else [])
      ++ (if n / 2 % 2 = 0 then ['w'] else []) ++
      (if n % 2 = 0 then ['x'] else [])
  "u=".toList ++ letters (mask / 64) ++ ",g=".toList
    ++ letters (mask / 8 % 8) ++
    ",o=".toList ++ letters (mask % 8)

/-- The mask that one symbolic clause makes of a mask. -/
def maskClause? (mask : Nat) (clause : Text) : Option Nat :=
  let isOwner (c : Char) : Bool := "ugoa".toList.contains c
  let owners := clause.takeWhile isOwner
  let owners :=
    if owners.isEmpty || owners.contains 'a' then "ugo".toList else owners
  match clause.dropWhile isOwner with
  | operator :: letters =>
    if !("=+-".toList.contains operator
        && letters.all "rwx".toList.contains) then none
    else
      let bit (c : Char) : Nat :=
        if c = 'r' then 4 else if c = 'w' then 2 else 1
      let bits :=
        "rwx".toList.foldl
          (fun n c => if letters.contains c then n + bit c else n) 0
      let change (old : Nat) : Nat :=
        if operator = '=' then 7 - bits
        else if operator = '+' then old &&& (7 - bits)
        else old ||| bits
      some
        (([('u', 64), ('g', 8), ('o', 1)] : List (Char × Nat)).foldl
          (fun n (owner, weight) =>
        let old := n / weight % 8
        if owners.contains owner then n - old * weight + change old * weight
        else n) mask)
  | [] => none

/-- Prints or sets the permissions that new files do not have. -/
def umask : Builtin m := fun arguments => do
  let r ← optionsOf "S" arguments
  match r.operands with
  | [] =>
    let mask := (← get).mask
    let digits := Nat.toDigits 8 mask
    emitLines 1 [if r.has 'S' then symbolicMask mask
      else List.replicate (4 - digits.length) '0' ++ digits]
    return 0
  | t :: _ =>
    if (t.head?.map Char.isDigit).getD false then
      if t.all isOctal then
        modify fun s => { s with mask := (digitsIn 8 t).value % 512 }
        return 0
      else fail ("Illegal number: ".toList ++ t)
    else
      match (Text.splitOn ',' t).foldlM maskClause? (← get).mask with
      | some mask =>
        modify fun s => { s with mask := mask }
        return 0
      | none => fail ("Illegal mode: ".toList ++ t)

/-- Shows or sets a limit. There are none. -/
def ulimit : Builtin m := fun arguments => do
  let r ← optionsOf "HSatfdsmcnpvlwr" arguments
  if r.operands.isEmpty then emitLines 1 ["unlimited".toList]
  return 0

/-- Shows how much time was used. -/
def times : Builtin m := fun _ => do
  emitLines 1 ["0m0.00s 0m0.00s".toList, "0m0.00s 0m0.00s".toList]
  return 0

-- ======================================================== aliases

/-- Shows or sets what words stand for. -/
def setAliases : Builtin m := fun arguments => do
  let shown (name value : Text) : Text := name ++ '=' :: inQuotes value
  if arguments.isEmpty then
    emitLines 1 ((← get).aliases.map fun (name, value) => shown name value)
  let mut status := 0
  for argument in arguments do
    match if argument.head? = some '=' then none
      else Text.cutAtFirst? '=' argument with
    | some (name, value) =>
      modify fun s => { s with
          aliases := s.aliases.filter (·.1 != name) ++ [(name, value)] }
    | none =>
      match (← get).aliases.lookup argument with
      | some value => emitLines 1 [shown argument value]
      | none =>
        emitText 2 ("alias: ".toList ++ argument ++ " not found\n".toList)
        status := 1
  return status

/-- Forgets what words stand for. -/
def dropAliases : Builtin m := fun arguments => do
  let r ← optionsOf "a" arguments
  if r.has 'a' then
    modify fun s => { s with aliases := [] }
    return 0
  let mut status := 0
  for name in r.operands do
    if ((← get).aliases.lookup name).isNone then
      emitText 2 ("unalias: ".toList ++ name ++ " not found\n".toList)
      status := 1
    modify fun s => { s with aliases := s.aliases.filter (·.1 != name) }
  return status

-- ======================================================== signals

/-- Shows or sets what is done about signals. -/
def trap : Builtin m := fun arguments => do
  let r ← optionsOf "" arguments
  match r.operands with
  | [] =>
    let shown :=
      (← get).traps.mergeSort fun a b => decide (a.1.number ≤ b.1.number)
    emitLines 1 (shown.map fun (signal, act) =>
      "trap -- ".toList ++ inQuotes act ++ ' ' :: signal.name)
    return 0
  | first :: rest =>
    let resets := rest.isEmpty || Number.isDigits first
    let act := if resets || first = ['-'] then none else some first
    for t in if resets then first :: rest else rest do
      match Signal.read? t with
      | none =>
        emitText 2 ("trap: ".toList ++ t ++ ": bad trap\n".toList)
        return 1
      | some signal =>
        modify fun s => { s with
          traps :=
            s.traps.filter (·.1 != signal) ++ (act.map (signal, ·)).toList }
    return 0

/-- What arguments ask to be killed, and how; the names of signals if they
ask for these. -/
inductive KillRequest where
  | names (statuses : List Text)
  | send (signal : Signal) (targets : List Text)

/-- What the arguments of `kill` ask for. -/
def killRequest (arguments : List Text) : Eval m KillRequest := do
  let usage : Text :=
    "Usage: kill [-s sigspec | -signum | -sigspec] [pid | job]... or\n".toList
      ++
      "kill -l [exitstatus]".toList
  let send (signal : Signal) (targets : List Text) : Eval m KillRequest :=
    if targets.isEmpty then fail usage else return .send signal targets
  match arguments with
  | [] => fail usage
  | ('-' :: t) :: rest =>
    match if t.isEmpty then none else Signal.read? t with
    | some signal => send signal rest
    | none =>
      let r ← optionsOf "ls:" arguments
      if r.has 'l' then return .names r.operands
      match r.operand? 's' with
      | some t =>
        match Signal.read? t with
        | some signal => send signal r.operands
        | none => fail ("invalid signal number or name: ".toList ++ t)
      | none => send .terminate r.operands
  | targets => send .terminate targets

/-- Prints the names of signals, or of those that statuses tell of. -/
def showSignals (statuses : List Text) : Eval m Nat := do
  match statuses with
  | [] => emitLines 1 (['0'] :: Signal.names.drop 1)
  | t :: _ =>
    let n ← numberOf t
    let n := if 128 < n then n - 128 else n
    if 0 < n && n < 65 then emitLines 1 [(Signal.mk n).name]
    else fail ("invalid signal number or exit status: ".toList ++ t)
  return 0

end Builtins

-- ======================================================== the table

/-- The names of the commands of the shell itself. -/
def builtinNames : List Text :=
  specialNames ++ ["[", "alias", "bg", "cd", "chdir", "command", "echo",
    "false", "fg", "getopts", "hash", "jobs", "kill", "printf", "pwd", "read",
    "test", "true", "type", "ulimit", "umask",
    "unalias", "wait"].map String.toList

section Table

variable {m : Type → Type} [Monad m] [FileTree m]

/-- The commands of the shell itself that run no others. -/
def builtin? (name : Text) : Option (Builtin m) :=
  match String.ofList name with
  | ":" => some fun _ => return 0
  | "true" => some fun _ => return 0
  | "false" => some fun _ => return 1
  | "echo" => some fun arguments => do
    emit 1 (.ofBytes (if (← get).dialect = .plain then echoBytes arguments
      else programEchoBytes false true arguments))
    return 0
  | "printf" => some printf
  | "test" => some judge
  | "[" => some judgeInBrackets
  | "exit" =>
      some fun arguments => do throw (.exit (← leavingStatus arguments))
  | "return" =>
      some fun arguments => do throw (.return_ (← leavingStatus arguments))
  | "break" => some (leaveLoops .leave)
  | "continue" => some (leaveLoops .again)
  | "shift" => some shift
  | "set" => some set_
  | "unset" => some unset
  | "export" => some export_
  | "readonly" => some readonly
  | "local" => some local_
  | "read" => some readVariables
  | "getopts" => some getopts
  | "cd" => some changeDirectory
  | "chdir" => some changeDirectory
  | "pwd" => some printDirectory
  | "umask" => some umask
  | "ulimit" => some ulimit
  | "times" => some times
  | "alias" => some setAliases
  | "unalias" => some dropAliases
  | "trap" => some trap
  | "jobs" => some fun arguments => do
    match (← optionsOf "lp" arguments).operands with
    | [] => return 0
    | t :: _ => fail ("No such job: ".toList ++ t)
  | "fg" => some noJob
  | "bg" => some noJob
  | _ => none
where
  /-- There is no job to go on with. -/
  noJob (arguments : List Text) : Eval m Nat :=
    match arguments with
    | [] => fail "No current job".toList
    | t :: _ => fail ("No such job: ".toList ++ t)

end Table

end GridScript.Shell
