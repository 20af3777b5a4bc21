/-
Programs that start other programs: in other surroundings, for a time only,
or once for each part of what they read. What they decide is kept apart
from starting anything.
-/
import GridScript.Shell.Lookup
import GridScript.Shell.Utility.Words

namespace GridScript.Shell

/-- A program that is to be started. -/
structure ProgramStart where
  name : Text
  arguments : List Text

/-- How long a program may run, and what becomes of it then. -/
structure TimeLimit where
  /-- In milliseconds; none if it may run for ever. -/
  span : Option Nat
  signal : Signal
  /-- Is the status that of a program which the signal has ended? -/
  keepsStatus : Bool
  tells : Bool

/-- How a program that starts others goes on. -/
inductive Launching where
  | ended (status : Nat)
  /-- It becomes another program; if that is not to be had, the text stands
  in front of its name. -/
  | become (start : ProgramStart) (complaint : Text → Text)
  /-- It waits for another program, for some time. -/
  | wait (limit : TimeLimit) (start : ProgramStart)
  /-- It waits for several programs, one after the other; the status is that
  at least. -/
  | each (starts : List ProgramStart) (tells : Bool) (status : Nat)

section Launchers

variable {m : Type → Type} [Monad m] [FileTree m]

/-- A program that starts others. -/
abbrev Launcher (m : Type → Type) := Text → List Text → Eval m Launching

/-- A complaint about arguments. -/
def misusedLauncher (self : Text) (status : Nat) (what : Text) :
    Eval m Launching := do
  return .ended (← misused self status what)

/-- The start of a program by its name and arguments. -/
def ProgramStart.of? : List Text → Option ProgramStart
  | [] => none
  | name :: arguments => some ⟨name, arguments⟩

/-- Reads the options of a program that starts others, and goes on. -/
def withLauncherOptions (table : OptionTable) (misuse : Nat)
    (act : Text → OptionsRead → Eval m Launching) : Launcher m :=
  fun self arguments => do
  match (withQuestions { table with mixes := false }).read arguments with
  | .error fault => misusedLauncher self misuse fault.message
  | .ok r =>
      if ← answers self r " [COMMAND [ARG]...]" then return .ended 0
      else act self r

-- ======================================================== env

/-- Words that are being split: those that are complete, the last one first,
and the one at hand. -/
structure Splitting where
  complete : List Text
  current : Option Text

/-- The splitting with a character added to the word at hand. -/
def Splitting.add (s : Splitting) (c : Char) : Splitting :=
  { s with current := some ((s.current.getD []) ++ [c]) }

/-- The splitting with the word at hand complete. -/
def Splitting.close (s : Splitting) : Splitting :=
  match s.current with
  | some t => ⟨t :: s.complete, none⟩
  | none => s

/-- The words of a text that one argument holds, or what is wrong with it. A
quotation mark that is open is given. The budget bounds the length. -/
def splitWords (vs : List (Text × Text)) :
    Nat → Option Char → Splitting → Text → Except Text (List Text)
  | 0, _, s, _ => .ok s.close.complete.reverse
  | _, none, s, [] => .ok s.close.complete.reverse
  | _, some _, _, [] => .error "no terminating quote in -S string".toList
  | budget + 1, quote, s, c :: t =>
    let isBlank := " \t\n\x0b\x0c\r".toList.contains c
    if quote = some c then splitWords vs budget none s t
    else if quote = some '\'' then
      match c, t with
      | '\\', e :: t =>
        if e = '\\' || e = '\'' then splitWords vs budget quote (s.add e) t
        else splitWords vs budget quote ((s.add c).add e) t
      | _, _ => splitWords vs budget quote (s.add c) t
    else if quote.isNone && (c = '\'' || c = '"') then
      splitWords vs budget (some c) { s with
          current := some (s.current.getD []) } t
    else if quote.isNone && isBlank then splitWords vs budget quote s.close t
    else if quote.isNone && c = '#' && s.current.isNone then
      .ok s.close.complete.reverse
    else if c = '\\' then
      match t with
      | [] => .error "invalid backslash at end of string in -S".toList
      | e :: t =>
        if e = '_' then
          splitWords vs budget quote
            (if quote.isSome then s.add ' ' else s.close) t
        else if e = 'c' then
          if quote.isSome then
            .error "'\\c' must not appear in double-quoted -S string".toList
          else .ok s.close.complete.reverse
        else
          match e with
          | 'f' => splitWords vs budget quote (s.add '\x0c') t
          | 'n' => splitWords vs budget quote (s.add '\n') t
          | 'r' => splitWords vs budget quote (s.add '\r') t
          | 't' => splitWords vs budget quote (s.add '\t') t
          | 'v' => splitWords vs budget quote (s.add '\x0b') t
          | _ =>
            if "\"#$'\\".toList.contains e then
              splitWords vs budget quote (s.add e) t
            else
              .error ("invalid sequence '\\".toList ++ e :: "' in -S".toList)
    else if c = '$' then
      let name := (t.drop 1).takeWhile Text.isWordChar
      let after := (t.drop 1).drop name.length
      if t.head? = some '\x7b' && after.head? = some '\x7d'
          && !name.isEmpty then
        let s := ((vs.lookup name).getD []).foldl Splitting.add s
        splitWords vs budget quote s (after.drop 1)
      else
        .error
          ("only $\x7bVARNAME\x7d expansion is supported, error at: $".toList
            ++ t)
    else splitWords vs budget quote (s.add c) t

/-- The words in place of the option that holds them all. The budget bounds
the number of options. -/
def withSplitWords (vs : List (Text × Text)) :
    Nat → List Text → Except Text (List Text)
  | 0, arguments => .ok arguments
  | budget + 1, arguments =>
    let split (t : Text) (rest : List Text) : Except Text (List Text) := do
      let words ← splitWords vs (t.length + 1) none ⟨[], none⟩ t
      withSplitWords vs budget (words ++ rest)
    match arguments with
    | ['-', 'S'] :: t :: rest => split t rest
    | ('-' :: 'S' :: t) :: rest => split t rest
    | ['-', 'v', 'S'] :: t :: rest => split t rest
    | ('-' :: 'v' :: 'S' :: t) :: rest => split t rest
    | t :: rest =>
      match Text.afterStart? "--split-string=".toList t with
      | some t => split t rest
      | none =>
        if t = "-i".toList || t = "-0".toList || t = "-v".toList
            || t = "-".toList then
          (withSplitWords vs budget rest).map (t :: ·)
        else .ok arguments
    | [] => .ok []

/-- What the options of `env` are. -/
def envOptions : OptionTable :=
  { OptionTable.of "+iu:0vC:S:"
    [("ignore-environment", 'i'), ("null", '0'), ("unset", 'u'),
     ("chdir", 'C'), ("debug", 'v'), ("split-string", 'S'),
     ("default-signal", 'D'), ("ignore-signal", 'D'), ("block-signal", 'D'),
     ("list-signal-handling", 'D')] with silent := "D::".toList }

/-- Starts a program with other variables, or prints the variables. -/
def env : Launcher m := fun self arguments => do
  modify fun s => { s with bindings := environment s }
  match withSplitWords (← get).bindings (arguments.length + 1) arguments with
  | .error what =>
    protest self what
    return .ended 125
  | .ok arguments =>
    withLauncherOptions envOptions 125 (fun self r => do
      let (dashes, operands) := match r.operands with
        | ['-'] :: rest => (true, rest)
        | operands => (false, operands)
      if r.has 'i' || dashes then
        modify fun s => { s with bindings := [], exported := [] }
      for o in r.options do
        if o.letter = 'u' then
          if o.operand.isEmpty || o.operand.contains '=' then
            protest self ("cannot unset ".toList ++ quotedWord o.operand ++
              ": Invalid argument".toList)
            return .ended 125
          restoreVariable o.operand none
      let assignments := operands.takeWhile (·.contains '=')
      for t in assignments do
        let (name, v) := (Text.cutAtFirst? '=' t).getD ([], [])
        restoreVariable name (some v)
        modify fun s => { s with exported := s.exported.insert name }
      let command := operands.drop assignments.length
      if r.has '0' && !command.isEmpty then
        return ← misusedLauncher self 125
          "cannot specify --null (-0) with command".toList
      match r.operand? 'C', command with
      | some _, [] =>
        return ← misusedLauncher self 125
          "must specify command with --chdir (-C)".toList
      | some directory, _ =>
        match ← entryAt directory with
        | .ok .directory =>
          modify fun s => { s with
              directory := Path.join s.directory directory }
        | result =>
          let e := match result with
            | .error e => e
            | .ok _ => .notDirectory
          protest self
            ("cannot change directory to ".toList ++ quotedPath directory ++
            ": ".toList ++ reasonText e)
          return .ended 125
      | none, _ => pure ()
      match command with
      | [] =>
        let end_ := if r.has '0' then '\x00' else '\n'
        emitText 1
          ((← get).bindings.flatMap fun (name, v) => name ++ '=' :: v
            ++ [end_])
        return .ended 0
      | name :: arguments =>
        if r.has 'v' then
          emitLines 2 (("executing: ".toList ++ name) ::
            (name :: arguments).zipIdx.map fun (t, n) =>
              "   arg[".toList ++ Number.decimal n ++ "]= ".toList
                ++ quotedWord t)
        let hint := if name.any " \t\n".toList.contains then
            ['\n'] ++ self
              ++ ": use -[v]S to pass options in shebang lines".toList
          else []
        return .become ⟨name, arguments⟩ fun reason =>
          quotedWord name ++ ": ".toList ++ reason ++ hint) self arguments

-- ======================================================== nice and nohup

/-- The arguments with a dash and digits in front written as an option. -/
def withAdjustment : List Text → List Text
  | ('-' :: c :: cs) :: rest =>
    let digits := if c = '-' || c = '+' then cs else c :: cs
    if Number.isDigits digits then ['-', 'n'] :: (c :: cs) :: rest
    else ('-' :: c :: cs) :: rest
  | arguments => arguments

/-- Starts a program that gives way to others, which makes no difference
here. -/
def nice : Launcher m := fun self arguments =>
  withLauncherOptions (OptionTable.of "n:" [("adjustment", 'n')]) 125
    (fun self r => do
    let isNumber (t : Text) : Bool := (decimal? t).isSome
    match r.operand? 'n', ProgramStart.of? r.operands with
    | none, none =>
      emitLines 1 [['0']]
      return .ended 0
    | some t, start =>
      if !isNumber t then
        protest self ("invalid adjustment ".toList ++ quotedWord t)
        return .ended 125
      match start with
      | none =>
          misusedLauncher self 125
            "a command must be given with an adjustment".toList
      | some start =>
        return .become start fun reason => quotedWord start.name ++ ": ".toList
          ++ reason
    | none, some start =>
      return .become start fun reason => quotedWord start.name ++ ": ".toList
        ++ reason)
    self (withAdjustment arguments)

/-- Starts a program that nobody stops from afar. -/
def nohup : Launcher m :=
  withLauncherOptions (OptionTable.of "" []) 125 fun self r => do
    match ProgramStart.of? r.operands with
    | none => misusedLauncher self 125 "missing operand".toList
    | some start =>
      modify fun s => { s with
          traps := s.traps.filter (·.1.number != 1) ++ [(⟨1⟩, [])] }
      return .become start fun reason =>
        "failed to run command ".toList ++ quotedPath start.name ++ ": ".toList
          ++ reason

-- ======================================================== timeout

/-- Starts a program for some time. -/
def timeout : Launcher m :=
  withLauncherOptions
    { OptionTable.of "fk:ps:v" [("foreground", 'f'), ("kill-after", 'k'),
      ("preserve-status", 'p'), ("signal", 's'), ("verbose", 'v')] with
      mixes := false } 125
  fun self r => do
    let wrongTime (t : Text) : Eval m Launching :=
      misusedLauncher self 125
        ("invalid time interval ".toList ++ quotedWord t)
    if let some t := r.operand? 'k' then
      if (timeSpan? t).isNone then return ← wrongTime t
    match ((r.operand? 's').map Signal.read?).getD (some .terminate) with
    | none =>
      misusedLauncher self 125
        (quotedWord ((r.operand? 's').getD []) ++ ": invalid signal".toList)
    | some signal =>
      match r.operands with
      | time :: name :: arguments =>
        match timeSpan? time with
        | none => wrongTime time
        | some span =>
          let span := if span = some 0 then none else span
          return .wait ⟨span, signal, r.has 'p', r.has 'v'⟩ ⟨name, arguments⟩
      | _ =>
        emitText 2
          ("Try '".toList ++ self ++ " --help' for more information.\n".toList)
        return .ended 125

-- ======================================================== xargs

/-- Is the character one that can stand between arguments of a line? -/
def isArgumentBlank (c : Char) : Bool := c == ' ' || c == '\t'

/-- The arguments in a text, in its lines; quotation marks and backslashes
quote. What is open is given: the mark, and the argument at hand. The last
value tells of a mark that nothing closes. The budget bounds the length. -/
def argumentLines :
    Nat → Option Char → Option Text → Text → List (List Text) × Option Char
  | 0, _, current, _ => ([current.toList], none)
  | _, none, current, [] => ([current.toList], none)
  | _, some quote, _, [] => ([[]], some quote)
  | budget + 1, quote, current, c :: t =>
    let add (argument : Option Text) (found : List (List Text) × Option Char) :
        List (List Text) × Option Char :=
      match found.1 with
      | line :: more => ((argument.toList ++ line) :: more, found.2)
      | [] => ([argument.toList], found.2)
    let longer (c : Char) : Option Text := some (current.getD [] ++ [c])
    match quote with
    | some q =>
      if c = q then argumentLines budget none (some (current.getD [])) t
      else if c = '\n' then ([[]], some q)
      else argumentLines budget quote (longer c) t
    | none =>
      if c = '\'' || c = '"' then
        argumentLines budget (some c) (some (current.getD [])) t
      else if c = '\n' then
        let (lines, mark) := argumentLines budget none none t
        (current.toList :: lines, mark)
      else if isArgumentBlank c then
        add current (argumentLines budget none none t)
      else
        match c, t with
        | '\\', e :: t => argumentLines budget none (longer e) t
        | _, _ => argumentLines budget none (longer c) t

/-- Texts in groups of so many. The budget bounds their number. -/
def inGroups {α : Type} (size : Nat) : Nat → List α → List (List α)
  | 0, _ => []
  | _, [] => []
  | budget + 1, as => as.take size :: inGroups size budget (as.drop size)

/-- The options of `xargs`. -/
def xargsOptions : OptionTable :=
  OptionTable.of "0a:d:E:e::I:i::L:l::n:prs:txP:o"
    [("null", '0'), ("arg-file", 'a'), ("delimiter", 'd'), ("replace", 'i'),
     ("max-lines", 'l'), ("max-args", 'n'), ("interactive", 'p'),
     ("no-run-if-empty", 'r'), ("max-chars", 's'),
     ("verbose", 't'), ("exit", 'x'), ("max-procs", 'P'), ("eof", 'e')]

/-- The character that an operand describes as a delimiter. -/
def delimiterOf (t : Text) : Char :=
  match t with
  | '\\' :: c :: _ =>
    match readEscape .format (t.drop 1) with
    | (.bytes (b :: _), _) => Char.ofNat b.toNat
    | _ => c
  | c :: _ => c
  | [] => '\x00'

/-- The line with backslashes in front of the blanks that are not quoted. The
quotation mark that is open is given. -/
def quoteBlanks : Option Char → Text → Text
  | _, [] => []
  | some quote, c :: t =>
      c :: quoteBlanks (if c = quote then none else some quote) t
  | none, '\\' :: c :: t => '\\' :: c :: quoteBlanks none t
  | none, c :: t =>
    if isArgumentBlank c then '\\' :: c :: quoteBlanks none t
    else c :: quoteBlanks (if c = '\'' || c = '"' then some c else none) t

/-- The line without blanks in front, as one argument. -/
def asOneArgument (line : Text) : Text :=
  quoteBlanks none (line.dropWhile isArgumentBlank)

/-- The arguments in a text by lines, and a mark that nothing closes: what
stands between delimiters, whole lines, or words. -/
def argumentsIn (wholeLines : Bool) (delimiter : Option Char) (t : Text) :
    List (List Text) × Option Char :=
  match delimiter with
  | some c =>
    let items := Text.splitOn c t
    ((if items.getLast? = some [] then items.dropLast else items).map ([·]),
      none)
  | none =>
    let t := if wholeLines then
        Text.joinWith ['\n'] ((Text.splitOn '\n' t).map asOneArgument)
      else t
    argumentLines (t.length + 1) none none t

/-- Starts a program with what is read as its arguments. -/
def xargs : Launcher m := withLauncherOptions xargsOptions 1 fun self r => do
  let command := if r.operands.isEmpty then ["echo".toList] else r.operands
  let number? (c : Char) : Option Text := r.operand? c
  let wrong? : Option (Char × Text) :=
    ['n', 'L', 'P', 's'].findSome? fun c =>
      (number? c).bind fun t => if Number.isDigits t then none else some (c, t)
  if let some (c, t) := wrong? then
    return ← misusedLauncher self 1
      ("invalid number \"".toList ++ t ++ "\" for -".toList ++
      c :: " option".toList)
  let isZero (c : Char) : Bool :=
    (number? c).map (Number.ofDigits 0) == some 0
  if let some c := ['n', 'L'].find? isZero then
    return ← misusedLauncher self 1
      ("value ".toList ++ (number? c).getD [] ++ " for -".toList ++
      c :: " option should be >= 1".toList)
  let opened ← match r.operand? 'a' with
    | some p => openFile p
    | none => pure (.ok (← drain 0))
  match opened with
  | .error e =>
    protest self
      ("Cannot open input file ".toList
        ++ quotedWord ((r.operand? 'a').getD []) ++
      ": ".toList ++ reasonText e)
    return .ended 1
  | .ok stream =>
    if stream.isEndless then throw .unfinished
    let t := Stream.decode stream.bytes
    let mark? := (r.operand? 'I' <|> (r.operand? 'i').map fun t =>
      if t.isEmpty then "\x7b\x7d".toList else t)
    let delimiter? :=
      if r.has '0' then some '\x00' else (r.operand? 'd').map delimiterOf
    let (lines, open_) := argumentsIn mark?.isSome delimiter? t
    let lines := lines.filter (!·.isEmpty)
    let items := lines.flatten
    let items := match r.operand? 'E' with
      | some last => items.takeWhile (· != last)
      | none => items
    if let some quote := open_ then
      protest self
        ("unmatched ".toList
          ++ (if quote = '"' then "double" else "single").toList ++
        (" quote; by default quotes are special to xargs unless you use the -0 option").toList)
    let groups : List (List Text) :=
      match mark? with
      | some mark =>
          items.map fun item => command.map fun t =>
            Text.replaceAll mark item t
      | none =>
        let sized (n : Nat) (as : List (List Text)) : List (List Text) :=
          (inGroups n (as.length + 1) as).map List.flatten
        let parts := match (number? 'n'), (number? 'L' <|> number? 'l') with
          | some n, _ => sized (Number.ofDigits 0 n) (items.map ([·]))
          | none, some n => sized (max 1 (Number.ofDigits 0 n)) lines
          | none, none => if items.isEmpty then [] else [items]
        let parts := if parts.isEmpty && !r.has 'r' then [[]] else parts
        parts.map (command ++ ·)
    return .each (groups.filterMap ProgramStart.of?) (r.has 't')
      (if open_.isSome then 1 else 0)

end Launchers

end GridScript.Shell
