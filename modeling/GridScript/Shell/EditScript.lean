/-
The scripts by which streams are edited line by line. Each command is a
letter with its operands, behind the lines that it is for; braces put
commands in blocks. Commands stand in one list, so that a jump is a place in
it.
-/
import GridScript.Shell.Numeral
import GridScript.Shell.Search

namespace GridScript.Shell

-- ======================================================== commands

/-- What tells a line. -/
inductive EditAddress where
  | line (n : Nat)
  | last
  /-- The lines that an expression is found in; the expression that was
  used last if there is none. -/
  | found (e : Option SearchExpression)
  /-- A line and each one so many lines later. -/
  | step (first step : Nat)
  /-- So many lines after the first. -/
  | plus (n : Nat)
  /-- The next line that is a multiple. -/
  | multiple (n : Nat)
  deriving DecidableEq

/-- The lines that a command is for. -/
structure EditGuard where
  first : Option EditAddress
  second : Option EditAddress
  negated : Bool
  deriving DecidableEq

/-- How letters change their case. -/
inductive CaseChange where
  | none
  | upper
  | lower
  deriving DecidableEq

/-- A part of what takes the place of a match. -/
inductive ReplacementPart where
  | text (t : Text)
  /-- What a group matched; all of the match for group zero. -/
  | group (n : Nat)
  /-- From here on letters change their case. -/
  | all (change : CaseChange)
  /-- The next letter changes its case. -/
  | one (change : CaseChange)
  deriving DecidableEq

/-- What is replaced by what. -/
structure Substitution where
  /-- What is looked for; the expression that was used last if there is
  none. -/
  pattern : Option SearchExpression
  replacement : List ReplacementPart
  /-- Are all matches replaced, from the first that counts on? -/
  everywhere : Bool
  prints : Bool
  /-- The first match that counts. -/
  ordinal : Nat
  /-- The file that the line is added to. -/
  file : Option Text
  deriving DecidableEq

/-- What a command does. -/
inductive EditAction where
  /-- What a letter says by itself. -/
  | plain (c : Char)
  /-- A text is printed before (`i`), after (`a`) or in place (`c`). -/
  | text (c : Char) (t : Text)
  /-- Goes on elsewhere: always (`b`), after a replacement (`t`) or without
  one (`T`). -/
  | jump (c : Char) (label : Text)
  | label (name : Text)
  /-- A file is read (`r`, `R`) or written (`w`, `W`). -/
  | file (c : Char) (name : Text)
  /-- The end, with the line printed (`q`) or not. -/
  | quit (c : Char) (code : Nat)
  | substitute (s : Substitution)
  /-- Characters take the places of others. -/
  | exchange (source target : Text)
  /-- The beginning of a block. -/
  | opening
  | closing
  deriving DecidableEq

/-- A command and the lines that it is for. -/
structure EditCommand where
  guard : EditGuard
  action : EditAction
  deriving DecidableEq

-- ======================================================== mistakes

/-- What is wrong with a script, and how much of it was left. -/
structure EditFault where
  message : Text
  left : Nat
  deriving DecidableEq

/-- A fault in front of the text that is left. -/
def editFault {α : Type} (message : String) (rest : Text) :
    Except EditFault α :=
  .error ⟨message.toList, rest.length⟩

-- ======================================================== expressions

/-- A text up to a delimiter that no backslash quotes and no set holds, and
what follows it; or what is left where the line ends before that. A quoted
delimiter stands for itself. The budget bounds the length. -/
def upToDelimiter (delimiter : Char) (sets : Bool) :
    Nat → Bool → Text → Except Text (Text × Text)
  | 0, _, t => .error t
  | _, _, [] => .error []
  | budget + 1, inSet, c :: t =>
    let goOn (front : Text) (inSet : Bool) (t : Text) : Except Text
        (Text × Text) :=
      (upToDelimiter delimiter sets budget inSet t).map fun (a, rest) =>
        (front ++ a, rest)
    if c = '\n' then .error (c :: t)
    else if inSet then goOn [c] (c != ']') t
    else if c = delimiter then .ok ([], t)
    else if c = '\\' then
      match t with
      | [] => .error []
      | e :: t =>
        if e = delimiter then goOn [e] false t
        else goOn ['\\', e] false t
    else if c = '[' && sets then
      let front := if t.head? = some '^' then ['^'] else []
      let t := t.drop front.length
      let front := front ++ if t.head? = some ']' then [']'] else []
      goOn ('[' :: front) true (if t.head? = some ']' then t.drop 1 else t)
    else goOn [c] false t

/-- The character that an escape stands for, if it stands for one. -/
def plainEscape? (c : Char) : Option Char :=
  match c with
  | 'n' => some '\n'
  | 't' => some '\t'
  | 'a' => some '\x07'
  | 'f' => some '\x0c'
  | 'v' => some '\x0b'
  | 'r' => some '\r'
  | _ => none

/-- The character whose code two hexadecimal digits spell, as a source has
to quote it to mean it as it is. -/
def codedChar? (a b : Char) : Option Text := do
  let c := Char.ofNat (16 * (← Number.hexValue? a) + (← Number.hexValue? b))
  return if "&\\*.[]^$/+?()\x7b\x7d|".toList.contains c then ['\\', c] else [c]

/-- A source with the escapes replaced that stand for one character by its
code. -/
def withCodes : Text → Text
  | '\\' :: 'x' :: a :: b :: t =>
    match codedChar? a b with
    | some cs => cs ++ withCodes t
    | none => '\\' :: 'x' :: withCodes (a :: b :: t)
  | '\\' :: c :: t => '\\' :: c :: withCodes t
  | c :: t => c :: withCodes t
  | [] => []

/-- A source with the escapes replaced that stand for one character. -/
def withPlainEscapes : Text → Text
  | '\\' :: c :: t =>
    match plainEscape? c with
    | some e => e :: withPlainEscapes t
    | none => '\\' :: c :: withPlainEscapes t
  | c :: t => c :: withPlainEscapes t
  | [] => []

/-- The expression of a source, in lower case if case does not count; none
for an empty source. -/
def editExpression (extended folds : Bool) (source rest : Text) :
    Except EditFault (Option SearchExpression) :=
  if source.isEmpty then .ok none
  else
    let source := withPlainEscapes (withCodes source)
    match SearchExpression.read extended source with
    | .ok e => .ok (some (if folds then e.folded else e))
    | .error e => .error ⟨e.message, rest.length⟩

-- ======================================================== addresses

/-- The text without the blanks in front. -/
def skipBlanks (t : Text) : Text := t.dropWhile fun c => c == ' ' || c == '\t'

/-- The text without blanks, line ends and semicolons in front. -/
def skipSeparators (t : Text) : Text :=
  t.dropWhile fun c => c == ' ' || c == '\t' || c == '\n' || c == ';'

/-- The number in front, and what follows. -/
def leadingDigits (t : Text) : Nat × Text :=
  (Number.ofDigits 0 (t.takeWhile Char.isDigit), t.dropWhile Char.isDigit)

/-- Does a digit come next? -/
def startsWithDigit (t : Text) : Bool := (t.head?.map Char.isDigit).getD false

/-- The address of an expression between delimiters. -/
def readFoundAddress (extended : Bool) (delimiter : Char) (t : Text) :
    Except EditFault (EditAddress × Text) := do
  match upToDelimiter delimiter true (t.length + 1) false t with
  | .error rest => editFault "unterminated address regex" rest
  | .ok (source, rest) =>
    let flags := rest.takeWhile fun c => c == 'I' || c == 'M'
    let rest := rest.drop flags.length
    return (.found
      (← editExpression extended (flags.contains 'I') source rest), rest)

/-- The address that comes next, if there is one. -/
def readAddress? (extended isSecond : Bool) (t : Text) :
    Except EditFault (Option (EditAddress × Text)) := do
  match t with
  | '$' :: rest => return some (.last, rest)
  | '/' :: rest => return some (← readFoundAddress extended '/' rest)
  | '\\' :: delimiter :: rest =>
      return some (← readFoundAddress extended delimiter rest)
  | c :: rest =>
    if c.isDigit then
      let (n, rest) := leadingDigits t
      match rest with
      | '~' :: more =>
        let (step, rest) := leadingDigits more
        return some (.step n step, rest)
      | rest => return some (.line n, rest)
    else if (c == '+' || c == '~') && startsWithDigit rest then
      let (n, rest) := leadingDigits rest
      if !isSecond then
        editFault "invalid usage of +N or ~N as first address" rest
      return some (if c = '+' then .plus n else .multiple n, rest)
    else return none
  | [] => return none

/-- The lines that the next command is for. -/
def readGuard (extended : Bool) (t : Text) :
    Except EditFault (EditGuard × Text) := do
  let (first, t) ← match ← readAddress? extended false t with
    | some (a, rest) => pure (some a, rest)
    | none => pure (none, t)
  let (second, t) ← match first, skipBlanks t with
    | some _, ',' :: rest =>
      match ← readAddress? extended true (skipBlanks rest) with
      | some (a, rest) => pure (some a, rest)
      | none => editFault "unexpected \x60,'" (rest.drop 1)
    | _, _ => pure (none, t)
  let refersToText : Bool := match second with
    | some (.found _) => true
    | _ => false
  if first = some (.line 0) && !refersToText then
    editFault "invalid usage of line address 0" (t.drop 1)
  match skipBlanks t with
  | '!' :: rest =>
    let rest := skipBlanks rest
    if rest.head? = some '!' then editFault "multiple \x60!'s" (rest.drop 1)
    return (⟨first, second, true⟩, rest)
  | rest => return (⟨first, second, false⟩, rest)

-- ======================================================== operands

/-- What follows a command up to its end; nothing but a brace or a comment
can follow it directly. -/
def endCommand (t : Text) : Except EditFault Text :=
  match skipBlanks t with
  | [] => .ok []
  | '\n' :: rest => .ok rest
  | ';' :: rest => .ok rest
  | '\x7d' :: rest => .ok ('\x7d' :: rest)
  | '#' :: rest => .ok ('#' :: rest)
  | _ :: rest => editFault "extra characters after command" rest

/-- The lines of a text that is an operand: a backslash at the end of a line
goes on with the next one, and elsewhere quotes a character. -/
def textLines : Text → Text × Text
  | [] => ([], [])
  | ['\\'] => ([], [])
  | '\n' :: rest => ([], rest)
  | '\\' :: c :: rest =>
    let (t, rest) := textLines rest
    ((plainEscape? c).getD c :: t, rest)
  | c :: rest =>
    let (t, rest) := textLines rest
    (c :: t, rest)

/-- The text that a command prints, as lines. -/
def readText (t : Text) : Except EditFault (Text × Text) := do
  let source : Text ← match skipBlanks t with
    | [] => editFault "expected \\ after \x60a', \x60c' or \x60i'" []
    | '\\' :: rest =>
      match skipBlanks rest with
      | '\n' :: more => pure more
      | [] => return ([], [])
      | c :: _ => pure (if c = '\\' then skipBlanks rest else rest)
    | other => pure other
  let (t, rest) := textLines source
  return (t ++ ['\n'], rest)

/-- The rest of a line, as the name of a file. -/
def readFileName (t : Text) : Except EditFault (Text × Text) := do
  let name := (skipBlanks t).takeWhile (· != '\n')
  if name.isEmpty then
    editFault "missing filename in r/R/w/W commands" (skipBlanks t)
  return (name, ((skipBlanks t).drop name.length).drop 1)

/-- The parts of what takes the place of a match. -/
def replacementParts : Text → List ReplacementPart
  | [] => []
  | '&' :: t => .group 0 :: replacementParts t
  | '\\' :: c :: t =>
    let here : ReplacementPart :=
      if c.isDigit then .group (Number.digitValue c)
      else
        match c with
        | 'U' => .all .upper
        | 'L' => .all .lower
        | 'E' => .all .none
        | 'u' => .one .upper
        | 'l' => .one .lower
        | _ => .text [(plainEscape? c).getD c]
    here :: replacementParts t
  | c :: t => .text [c] :: replacementParts t

/-- What follows the delimiters of a replacement, read letter by letter. -/
def readFlags :
    Nat → Substitution → Bool → Text →
      Except EditFault ((Substitution × Bool) × Text)
  | 0, s, folds, t => .ok ((s, folds), t)
  | budget + 1, s, folds, t =>
    match t with
    | 'g' :: rest =>
      if s.everywhere then
        editFault "multiple \x60g' options to \x60s' command" rest
      else readFlags budget { s with everywhere := true } folds rest
    | 'p' :: rest =>
      if s.prints then
        editFault "multiple \x60p' options to \x60s' command" rest
      else readFlags budget { s with prints := true } folds rest
    | ' ' :: rest => readFlags budget s folds rest
    | 'i' :: rest => readFlags budget s true rest
    | 'I' :: rest => readFlags budget s true rest
    | 'm' :: rest => readFlags budget s folds rest
    | 'M' :: rest => readFlags budget s folds rest
    | 'w' :: rest => do
      let (name, rest) ← readFileName rest
      return (({ s with file := some name }, folds), rest)
    | c :: rest =>
      if c.isDigit then
        let (n, rest) := leadingDigits t
        if n = 0 then
          editFault "number option to \x60s' command may not be zero" rest
        else if s.ordinal ≠ 0 then
          editFault "multiple number options to \x60s' command" rest
        else readFlags budget { s with ordinal := n } folds rest
      else if "\n;\x7d#".toList.contains c then
        do return ((s, folds), ← endCommand t)
      else editFault "unknown option to \x60s'" rest
    | [] => .ok ((s, folds), [])

/-- A replacement after its letter. -/
def readSubstitution (extended : Bool) (t : Text) :
    Except EditFault (Substitution × Text) := do
  match t with
  | [] => editFault "unterminated \x60s' command" []
  | delimiter :: t =>
    match upToDelimiter delimiter true (t.length + 1) false t with
    | .error rest => editFault "unterminated \x60s' command" rest
    | .ok (source, t) =>
      match upToDelimiter delimiter false (t.length + 1) false t with
      | .error rest => editFault "unterminated \x60s' command" rest
      | .ok (replacement, t) =>
        let parts := replacementParts (withCodes replacement)
        let bare : Substitution := ⟨none, parts, false, false, 0, none⟩
        let ((s, folds), rest) ← readFlags (t.length + 1) bare false t
        let pattern ← editExpression extended folds source rest
        let groups := (pattern.map SearchExpression.groups).getD 9
        let wrong := parts.find? fun part =>
          match part with
          | .group n => decide (groups < n)
          | _ => false
        match wrong with
        | some (.group n) =>
          .error ⟨"invalid reference \\".toList ++ Number.decimal n ++
            " on \x60s' command's RHS".toList, rest.length⟩
        | _ => return ({ s with pattern := pattern }, rest)

/-- The characters of a list that characters are exchanged by. -/
def exchangeChars : Text → Text
  | '\\' :: '\\' :: t => '\\' :: exchangeChars t
  | '\\' :: c :: t =>
    match plainEscape? c with
    | some e => e :: exchangeChars t
    | none => '\\' :: c :: exchangeChars t
  | c :: t => c :: exchangeChars t
  | [] => []

/-- An exchange of characters after its letter. -/
def readExchange (t : Text) : Except EditFault (EditAction × Text) := do
  match t with
  | [] => editFault "unterminated \x60y' command" []
  | delimiter :: t =>
    let parts : Except Text (Text × Text × Text) := do
      let (source, t) ← upToDelimiter delimiter false (t.length + 1) false t
      let (target, t) ← upToDelimiter delimiter false (t.length + 1) false t
      return (exchangeChars source, exchangeChars target, t)
    match parts with
    | .error rest => editFault "unterminated \x60y' command" rest
    | .ok (source, target, rest) =>
      if source.length ≠ target.length then
        editFault "strings for \x60y' command are different lengths" rest
      return (.exchange source target, ← endCommand rest)

/-- The name of a place to go on at. -/
def readLabel (t : Text) : Text × Text :=
  let t := skipBlanks t
  let name := t.takeWhile fun c => !" \t\n;".toList.contains c
  (name, t.drop name.length)

/-- The command of a letter, and what follows it. -/
def readAction (extended : Bool) (guard : EditGuard) (c : Char) (t : Text) :
    Except EditFault ((Option EditAction) × Text) := do
  if "=dDFgGhHlnNpPxz".toList.contains c then
    return (some (.plain c), ← endCommand t)
  else if "aic".toList.contains c then
    let (text, rest) ← readText t
    return (some (.text c text), rest)
  else if "btT".toList.contains c then
    let (name, rest) := readLabel t
    return (some (.jump c name), ← endCommand rest)
  else if "rRwW".toList.contains c then
    let (name, rest) ← readFileName t
    return (some (.file c name), rest)
  else if "qQ".toList.contains c then
    let (code, rest) := leadingDigits (skipBlanks t)
    return (some (.quit c code), ← endCommand rest)
  else
    match c with
    | 's' =>
      let (s, rest) ← readSubstitution extended t
      return (some (.substitute s), rest)
    | 'y' =>
      let (action, rest) ← readExchange t
      return (some action, rest)
    | '\x7b' => return (some .opening, t)
    | '\x7d' =>
      if guard.first.isSome then
        editFault "\x60\x7d' doesn't want any addresses" t
      return (some .closing, ← endCommand t)
    | ':' =>
      if guard.first.isSome then editFault ": doesn't want any addresses" t
      let name := (skipBlanks t).takeWhile fun c => !" \t\n;".toList.contains c
      if name.isEmpty then editFault "\":\" lacks a label" (skipBlanks t)
      return (some (.label name), (skipBlanks t).drop name.length)
    | '#' =>
      if guard.first.isSome then
        editFault "comments don't accept any addresses" t
      return (none, t.dropWhile (· != '\n'))
    | 'v' => return (none, (t.dropWhile fun c => c != '\n' && c != ';'))
    | _ => .error ⟨"unknown command: \x60".toList ++ [c, '\''], t.length⟩

/-- The commands of a script; `depth` blocks are open. The budget bounds
their number. -/
def readCommands (extended : Bool) :
    Nat → Nat → Text → Except EditFault (List EditCommand)
  | 0, _, _ => .ok []
  | budget + 1, depth, t => do
    let t := skipSeparators t
    if t.isEmpty then
      return ← if depth = 0 then .ok []
        else .error ⟨"unmatched \x60\x7b'".toList, t.length⟩
    let (guard, t) ← readGuard extended t
    match t with
    | [] => editFault "missing command" []
    | c :: t =>
      if c = '\x7d' && depth = 0 then editFault "unexpected \x60\x7d'" t
      let (action, rest) ← readAction extended guard c t
      match action with
      | none => readCommands extended budget depth rest
      | some action =>
        let depth := match action with
          | .opening => depth + 1
          | .closing => depth - 1
          | _ => depth
        return ⟨guard, action⟩ :: (← readCommands extended budget depth rest)

/-- The label that a jump looks for and that is nowhere. -/
def missingLabel? (commands : List EditCommand) : Option Text :=
  let labels := commands.filterMap fun c =>
    match c.action with
    | .label name => some name
    | _ => none
  commands.findSome? fun c =>
    match c.action with
    | .jump _ name =>
        if name.isEmpty || labels.contains name then none else some name
    | _ => none

/-- Is an expression the one that was used last before any was used? -/
def refersToNothing (commands : List EditCommand) : Bool :=
  let uses (c : EditCommand) : List (Option SearchExpression) :=
    let ofAddress (a : Option EditAddress) : List (Option SearchExpression) :=
      match a with
      | some (.found e) => [e]
      | _ => []
    ofAddress c.guard.first ++ ofAddress c.guard.second ++
      match c.action with
      | .substitute s => [s.pattern]
      | _ => []
  (commands.flatMap uses).head? = some none

end GridScript.Shell
