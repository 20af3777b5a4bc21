/-
Reading commands. A source is read one line of commands at a time, since
what an earlier line does is done before a later one is looked at. Reserved
words count only where a command can begin, and so do the words that stand
for others.

All readers work within a budget that bounds how deep they go; every step
that stays on one level consumes source.
-/
import GridScript.Number.Natural
import GridScript.Shell.WordReader

namespace GridScript.Shell

-- ======================================================== blanks

/-- The source after blanks, joined lines, documents and a comment. -/
def skipBlank : Text → Text
  | '\\' :: '\n' :: t => skipBlank t
  | c :: t =>
    if c = ' ' ∨ c = '\t' ∨ c = takenLine then skipBlank t
    else if c = '#' then (c :: t).dropWhile (· != '\n')
    else c :: t
  | [] => []

/-- The source after blanks, comments and ends of lines. The budget bounds
the number of lines. -/
def skipLinesWithin : Nat → Text → Text
  | 0, t => t
  | budget + 1, t =>
    match skipBlank t with
    | '\n' :: rest => skipLinesWithin budget rest
    | rest => rest

/-- The source after blanks, comments and ends of lines. -/
def skipLines (t : Text) : Text := skipLinesWithin (t.length + 1) t

-- ======================================================== reserved words

/-- The characters of the word that comes next, as they are written. -/
def rawWord (t : Text) : Text := t.takeWhile fun c => !isMeta c

/-- The words that end a list of commands. -/
def closingWords : List Text :=
  ["then", "do", "done", "fi", "elif", "else", "esac", "\x7d"].map
    String.toList

/-- The words that mean something where a command begins. -/
def reservedWords : List Text :=
  ["!", "case", "for", "if", "in", "until", "while", "\x7b"].map String.toList
    ++ closingWords

/-- Can a list of commands end here? -/
def endsList : Text → Bool
  | [] => true
  | ')' :: _ => true
  | ';' :: ';' :: _ => true
  | t => closingWords.contains (rawWord t)

/-- The source from a redirection's operator on, after the digit in front of
it, and that digit. -/
def cutChannel? (t : Text) : Option (Option Nat × Text) :=
  let (channel, rest) := match t with
    | c :: rest =>
        if c.isDigit then (some (Number.digitValue c), rest) else (none, t)
    | [] => (none, [])
  match rest with
  | '<' :: _ => some (channel, rest)
  | '>' :: _ => some (channel, rest)
  | _ => none

/-- What the token that comes next is called; where no word is reserved, they
are all called alike. -/
def tokenName (reserves : Bool) (c : Char) (rest : Text) : Text :=
  let raw := rawWord (c :: rest)
  let inQuotes (t : Text) : Text := '"' :: t ++ ['"']
  if c = '\n' then "newline".toList
  else if (cutChannel? (c :: rest)).isSome then "redirection".toList
  else if !raw.isEmpty then
    if reserves && reservedWords.contains raw then inQuotes raw
    else "word".toList
  else if rest.head? = some c ∧ (c = ';' ∨ c = '&' ∨ c = '|') then
    inQuotes [c, c]
  else inQuotes [c]

/-- What stands where something else was needed, and words are reserved or
not. -/
def unexpectedToken (reserves : Bool) (needed : Option Text) (t : Text) :
    SyntaxError :=
  match skipBlank t with
  | [] => .endOfFile needed
  | c :: rest =>
      .unexpected (tokenName reserves c rest) needed (lineBreaks rest)

/-- What stands where something else was needed. -/
def unexpected (needed : Option Text) (t : Text) : SyntaxError :=
  unexpectedToken true needed t

/-- The source after a reserved word that has to come next. -/
def expectWord (word : String) (t : Text) : Except SyntaxError Text :=
  let t := skipBlank t
  if rawWord t = word.toList then .ok (t.drop word.length)
  else .error (unexpected (some word.toList) t)

/-- Refuses what comes next. A word is read whole before that. -/
def refuseToken {α : Type} (r : Reading) (cut : CommandCut) (reserves : Bool)
    (needed : Option Text) (t : Text) : Except SyntaxError α := do
  let _ ← readWord r cut (skipBlank t)
  throw (unexpectedToken reserves needed t)

-- ======================================================== redirections

/-- Does a backslash at the end of the line quote the line break? -/
def isJoining (line : Text) : Bool :=
  (line.reverse.takeWhile (· == '\\')).length % 2 == 1

/-- What ends a document, whether tabs at the start of its lines are taken
out, and whether it is plain text. -/
structure DocumentEnd where
  delimiter : Text
  strip : Bool
  isPlain : Bool

/-- The text up to a delimiter, the source after its line, and whether the
delimiter was found. A line that is joined to the one before it is no line
of its own, so it can be no delimiter. The budget bounds the number of
lines. -/
def DocumentEnd.cut (e : DocumentEnd) : Nat → Bool → Text → Text × Text × Bool
  | 0, _, t => ([], t, false)
  | budget + 1, isJoined, t =>
    if t.isEmpty then ([], [], false)
    else
      let line := t.takeWhile (· != '\n')
      let line :=
        if e.strip && !isJoined then line.dropWhile (· == '\t') else line
      let after := t.dropWhile (· != '\n')
      if line = e.delimiter ∧ !isJoined then ([], after.drop 1, true)
      else
        let (body, rest, found) :=
          e.cut budget (!e.isPlain && isJoining line) (after.drop 1)
        (line ++ after.take 1 ++ body, rest, found)

/-- A document as it was taken out of a source. -/
structure CutDocument where
  body : Text
  /-- The source that the document begins. -/
  source : Text
  /-- How many line breaks that has after the body. -/
  left : Nat
  /-- The source after the operator, without the document. -/
  rest : Text
  isEnded : Bool

/-- The document that the lines after this one hold. -/
def cutDocument (e : DocumentEnd) (t : Text) : CutDocument :=
  let next := (t.dropWhile (· != '\n')).drop 1
  let source := afterDocuments next
  let (body, rest, isEnded) := e.cut (t.length + 1) false source
  let taken := List.replicate (lineBreaks next - lineBreaks rest) takenLine
  { body := body
    source := source
    left := lineBreaks source - lineBreaks body
    rest := t.takeWhile (· != '\n') ++ '\n' :: taken ++ rest
    isEnded := isEnded }

/-- The text of a part of a delimiter. -/
def delimiterText : WordPart → Text
  | .text t _ => t
  | _ => []

/-- Is the part quoted text? -/
def isQuotedText : WordPart → Bool
  | .text _ quoted => quoted
  | _ => false

/-- A document after its operator. -/
def readDocument (r : Reading) (cut : CommandCut) (channel : Nat)
    (strip : Bool) (t : Text) :
    Except SyntaxError (Redirection × Text) := do
  let (word, rest) ← readWordParts { r with
      purpose := .delimiter } cut (skipBlank t)
  if word.isEmpty then throw (unexpected none t)
  let isPlain := word.any isQuotedText
  let d := cutDocument ⟨word.flatMap delimiterText, strip, isPlain⟩ rest
  if !d.isEnded && !r.isAll then throw (.endOfFile none)
  if isPlain then return (⟨channel, .document, [.text d.body true]⟩, d.rest)
  let within := Reading.whole (r.lineAt d.source) r.aliases d.body
  let target ← (documentWord { within with
      isAll := !d.isEnded } cut d.body).mapError
    (SyntaxError.before d.left)
  return (⟨channel, .document, target⟩, d.rest)

/-- A redirection, if one comes next. -/
def readRedirection? (r : Reading) (cut : CommandCut) (t : Text) :
    Except SyntaxError (Option (Redirection × Text)) := do
  match cutChannel? t with
  | none => return none
  | some (channel, operator) =>
    let word (standard : Nat) (kind : RedirectionKind) (t : Text) :
        Except SyntaxError (Option (Redirection × Text)) := do
      let (target, rest) ← readWord r cut (skipBlank t)
      if target.isEmpty || (cutChannel? (skipBlank t)).isSome then
        throw (unexpected none t)
      return some (⟨channel.getD standard, kind, target⟩, rest)
    match operator with
    | '<' :: '<' :: '-' :: t =>
        return some (← readDocument r cut (channel.getD 0) true t)
    | '<' :: '<' :: t =>
        return some (← readDocument r cut (channel.getD 0) false t)
    | '<' :: '&' :: t => word 0 .duplicate t
    | '<' :: '>' :: t => word 0 .both t
    | '<' :: t => word 0 .read t
    | '>' :: '>' :: t => word 1 .append t
    | '>' :: '&' :: t => word 1 .duplicate t
    | '>' :: '|' :: t => word 1 .force t
    | '>' :: t => word 1 .write t
    | _ => return none

/-- The redirections that come next. The budget bounds their number. -/
def readRedirections (r : Reading) (cut : CommandCut) :
    Nat → Text → Except SyntaxError (List Redirection × Text)
  | 0, t => .ok ([], t)
  | budget + 1, t => do
    match ← readRedirection? r cut (skipBlank t) with
    | none => return ([], t)
    | some (redirection, rest) =>
      let (more, rest) ← readRedirections r cut budget rest
      return (redirection :: more, rest)

-- ======================================================== simple commands

/-- The name that is assigned to here, and the source of its value. -/
def cutAssignment? (t : Text) : Option (Text × Text) :=
  let name := Text.word t
  match Text.afterWord t with
  | '=' :: rest =>
    if (name.head?.map Text.isWordStart).getD false then some (name, rest)
    else none
  | _ => none

/-- The commands whose arguments can be assignments. -/
def declaringNames : List Text :=
  ["export", "readonly", "local"].map String.toList

/-- The word of a command that comes next. A word that looks like an
assignment is one for a command that declares variables. -/
def readArgument (r : Reading) (cut : CommandCut) (declares : Bool)
    (t : Text) :
    Except SyntaxError (Word × Text) := do
  match if declares then cutAssignment? t else none with
  | some (name, rest) =>
    let (value, rest) ← readWordParts r cut rest
    return ([.joined (.text (name ++ ['=']) true :: withPathHomes value)],
      rest)
  | none => readWord r cut t

/-- Is this word plain text? -/
def isPlainWord (name : Text) : Word → Bool
  | [.text t false] => t == name
  | _ => false

/-- Has the command no part yet? -/
def SimpleCommand.isEmpty (s : SimpleCommand) : Bool :=
  s.assignments.isEmpty && s.words.isEmpty && s.redirections.isEmpty

/-- The command with the line that its first part ends in. -/
def SimpleCommand.begunAt (s : SimpleCommand) (line : Nat) : SimpleCommand :=
  if s.isEmpty then { s with line := line } else s

/-- The parts of a simple command that come next. The budget bounds their
number. -/
def readSimple (r : Reading) (cut : CommandCut) :
    Nat → SimpleCommand → Text → Except SyntaxError (SimpleCommand × Text)
  | 0, s, t => .ok (s, t)
  | budget + 1, s, t => do
    let t := skipBlank t
    match ← readRedirection? r cut t with
    | some (redirection, rest) =>
      let s := s.begunAt (r.lineAt t)
      readSimple r cut budget { s with
          redirections := s.redirections ++ [redirection] } rest
    | none =>
      if t.isEmpty || (t.head?.map isMeta).getD false then return (s, t)
      else
        match if s.words.isEmpty then cutAssignment? t else none with
        | some (name, rest) =>
          let (value, rest) ← readWordParts r cut rest
          let s := s.begunAt (r.lineAt rest)
          let assignment := (name, withPathHomes value)
          readSimple r cut budget { s with
              assignments := s.assignments ++ [assignment] } rest
        | none =>
          let declares := declaringNames.any fun name =>
            (s.words.head?.map (isPlainWord name)).getD false
          let (word, rest) ← readArgument r cut declares t
          let s := s.begunAt (r.lineAt rest)
          readSimple r cut budget { s with words := s.words ++ [word] } rest

/-- The command with its redirections. -/
def withRedirections (line : Nat) (s : Statement) (rs : List Redirection) :
    Statement :=
  if rs.isEmpty then s else .redirected line s rs

/-- The source after an operator. -/
def afterOperator : Text → Text
  | [] => []
  | c :: t =>
    let isLong (d : Char) : Bool :=
      (c == d && ";&|<>".toList.contains c)
        || ("<>".toList.contains c && "&|>".toList.contains d)
    if (t.head?.map isLong).getD false then t.drop 1 else t

/-- The patterns of a clause up to its parenthesis. An operator where a
pattern should be is noticed only by what follows it. The budget bounds
their number. -/
def readPatterns (r : Reading) (cut : CommandCut) :
    Nat → Text → Except SyntaxError (List Word × Text)
  | 0, _ => .error (.endOfFile none)
  | budget + 1, t => do
    let t := skipBlank t
    let (pattern, rest) ← readWord r cut t
    match skipBlank (if pattern.isEmpty then afterOperator t else rest) with
    | '|' :: rest => do
      let (patterns, rest) ← readPatterns r cut budget rest
      return (pattern :: patterns, rest)
    | ')' :: rest => return ([pattern], rest)
    | rest => refuseToken r cut false (some [')']) rest

/-- The words of a loop up to the end of the line. The budget bounds their
number. -/
def readWords (r : Reading) (cut : CommandCut) :
    Nat → Text → Except SyntaxError (List Word × Text)
  | 0, t => .ok ([], t)
  | budget + 1, t => do
    let t := skipBlank t
    if t.isEmpty || (t.head?.map isMeta).getD false then return ([], t)
    else
      let (word, rest) ← readWord r cut t
      let (words, rest) ← readWords r cut budget rest
      return (word :: words, rest)

/-- The source after what separates the words of a loop from its body. It
must be there if words were given. -/
def skipSeparator (isNeeded : Bool) (t : Text) : Except SyntaxError Text :=
  match skipBlank t with
  | ';' :: ';' :: rest => .error (unexpected none (';' :: ';' :: rest))
  | ';' :: rest => .ok (skipLines rest)
  | '\n' :: rest => .ok (skipLines rest)
  | rest => if isNeeded then .error (unexpected none rest) else .ok rest

-- ======================================================== functions

/-- The commands of the shell that no function can take the place of. -/
def specialNames : List Text :=
  [":", ".", "break", "continue", "eval", "exec", "exit", "export", "local",
   "readonly", "return", "set", "shift", "times", "trap", "unset"].map
     String.toList

/-- Can a function have the name? -/
def isFunctionName (name : Text) : Bool :=
  (name.head?.map Text.isWordStart).getD false && name.all Text.isWordChar &&
    !specialNames.contains name

/-- The name of a function that is defined here, and the source after its
parentheses. -/
def readFunctionName? (r : Reading) (cut : CommandCut) (t : Text) :
    Except SyntaxError (Option (Text × Text)) := do
  let name := rawWord t
  if name.isEmpty || (cutAssignment? t).isSome then return none
  let isQuoted := name.any "\\'\"$\x60".toList.contains
  let after ← if isQuoted then pure (← readWord r cut t).2
      else pure (t.drop name.length)
  match skipBlank after with
  | '(' :: rest =>
    match skipBlank rest with
    | ')' :: rest =>
      if !isQuoted && isFunctionName name then return some (name, rest)
      else throw (.badFunctionName (lineBreaks rest))
    | rest => refuseToken r cut false (some [')']) rest
  | _ => return none

-- ======================================================== aliases

/-- The source with the word that comes next replaced by what it stands
for, and the reading without that. A replacement that ends in a blank makes
the word after it count as well. -/
def cutAlias? (r : Reading) (t : Text) : Option (Reading × Text) :=
  let name := rawWord t
  (if reservedWords.contains name then none else r.aliases.lookup name).map
    fun value =>
      let r := { r with aliases := r.aliases.filter (·.1 != name) }
      let rest := t.drop name.length
      let next := skipBlank rest
      let nextName := rawWord next
      match value.getLast? == some ' ', r.aliases.lookup nextName with
      | true, some more => (r, value ++ more ++ next.drop nextName.length)
      | _, _ => (r, value ++ rest)

-- ======================================================== commands

/-- How commands are found in a source, where `list` reads them. Those
between backquotes are a source of their own, whose lines are counted from
the first on. -/
def cutCommand (r : Reading)
    (list : Reading → Text → Except SyntaxError (Statement × Text)) :
    CommandCut where
  toParenthesis t := do
    let (_, rest) ← list r t
    match skipLines rest with
    | ')' :: after => return (t.take (t.length - (after.length + 1)), after)
    | rest => throw (unexpected (some [')']) rest)
  ofBackquotes source :=
    let r := Reading.whole 1 r.aliases source
    match list r source with
    | .ok (_, rest) => .ok (source.take (source.length - rest.length))
    | .error e => .error (.within (r.lineOf e) e.message)

mutual

/-- Commands up to where a list can end. -/
def readList (r : Reading) : Nat → Text → Except SyntaxError (Statement × Text)
  | 0, _ => .error (.endOfFile none)
  | budget + 1, t => do
    let t := skipLines t
    if endsList t then return (.nothing, t)
    let (first, t) ← readLogical r budget t
    match skipBlank t with
    | ';' :: ';' :: rest => return (first, ';' :: ';' :: rest)
    | ';' :: rest => do
      let (more, rest) ← readList r budget rest
      return (.sequence first more, rest)
    | '&' :: rest => do
      let (more, rest) ← readList r budget rest
      return (.sequence (.background first) more, rest)
    | '\n' :: rest => do
      let (more, rest) ← readList r budget rest
      return (.sequence first more, rest)
    | rest => return (first, rest)

/-- A list that has to hold a command, and the word that ends it. -/
def readFilledList (r : Reading) (ending : String) :
    Nat → Text → Except SyntaxError (Statement × Text)
  | 0, _ => .error (.endOfFile none)
  | budget + 1, t => do
    let t := skipLines t
    if t.isEmpty then throw (.endOfFile (some ending.toList))
    if endsList t then throw (unexpected none t)
    readList r budget t

/-- Pipelines joined by `&&` and `||`. -/
def readLogical (r : Reading) :
    Nat → Text → Except SyntaxError (Statement × Text)
  | 0, _ => .error (.endOfFile none)
  | budget + 1, t => do
    let (first, t) ← readPipeline r budget t
    readLogicalAfter r budget first t

/-- What follows a pipeline that was read. -/
def readLogicalAfter (r : Reading) :
    Nat → Statement → Text → Except SyntaxError (Statement × Text)
  | 0, _, _ => .error (.endOfFile none)
  | budget + 1, first, t => do
    match skipBlank t with
    | '&' :: '&' :: rest => do
      let (second, rest) ← readPipeline r budget (skipLines rest)
      readLogicalAfter r budget (.both first second) rest
    | '|' :: '|' :: rest => do
      let (second, rest) ← readPipeline r budget (skipLines rest)
      readLogicalAfter r budget (.either first second) rest
    | rest => return (first, rest)

/-- Commands joined by `|`, or the opposite of them. -/
def readPipeline (r : Reading) :
    Nat → Text → Except SyntaxError (Statement × Text)
  | 0, _ => .error (.endOfFile none)
  | budget + 1, t => do
    let t := skipBlank t
    if rawWord t = ['!'] then
      let (s, rest) ← readPipe r budget (t.drop 1)
      return (.negated s, rest)
    readPipe r budget t

/-- Commands joined by `|`. -/
def readPipe (r : Reading) : Nat → Text → Except SyntaxError (Statement × Text)
  | 0, _ => .error (.endOfFile none)
  | budget + 1, t => do
    let (first, t) ← readCommand r budget t
    match skipBlank t with
    | '|' :: '|' :: rest => return (first, '|' :: '|' :: rest)
    | '|' :: rest => do
      let (second, rest) ← readPipe r budget (skipLines rest)
      return (.pipe first second, rest)
    | rest => return (first, rest)

/-- The branches of a condition after its first word. -/
def readBranches (r : Reading) :
    Nat → Text → Except SyntaxError (Statement × Text)
  | 0, _ => .error (.endOfFile none)
  | budget + 1, t => do
    let (test, t) ← readFilledList r "then" budget t
    let (yes, t) ← readFilledList r "fi" budget (← expectWord "then" t)
    let t := skipBlank t
    if rawWord t = "elif".toList then
      let (no, rest) ← readBranches r budget (t.drop 4)
      return (.conditional test yes no, rest)
    else if rawWord t = "else".toList then
      let (no, rest) ← readFilledList r "fi" budget (t.drop 4)
      return (.conditional test yes no, ← expectWord "fi" rest)
    else return (.conditional test yes .nothing, ← expectWord "fi" t)

/-- The body of a loop, between its words. -/
def readBody (r : Reading) : Nat → Text → Except SyntaxError (Statement × Text)
  | 0, _ => .error (.endOfFile none)
  | budget + 1, t => do
    let (body, rest) ← readFilledList r "done" budget (← expectWord "do" t)
    return (body, ← expectWord "done" rest)

/-- The clauses of a choice up to its last word. -/
def readClauses (r : Reading) :
    Nat → Text → Except SyntaxError (List (List Word × Statement) × Text)
  | 0, _ => .error (.endOfFile none)
  | budget + 1, t => do
    let t := skipLines t
    if rawWord t = "esac".toList then return ([], t.drop 4)
    let t := if t.head? = some '(' then t.drop 1 else t
    let (patterns, rest) ← readPatterns r
        (cutCommand r fun r => readList r budget) (t.length + 1) t
    let (body, rest) ← readList r budget rest
    match skipBlank rest with
    | ';' :: ';' :: rest => do
      let (clauses, rest) ← readClauses r budget rest
      return ((patterns, body) :: clauses, rest)
    | rest =>
      if rawWord rest = "esac".toList then
        return ([(patterns, body)], rest.drop 4)
      else throw (unexpected (some ";;".toList) rest)

/-- A loop over words after its first word. -/
def readEach (r : Reading) : Nat → Text → Except SyntaxError (Statement × Text)
  | 0, _ => .error (.endOfFile none)
  | budget + 1, t => do
    let t := skipBlank t
    let name := rawWord t
    if !((name.head?.map Text.isWordStart).getD false
        && name.all Text.isWordChar) then
      let _ ← readWord r (cutCommand r fun r => readList r budget) t
      throw (.badLoopVariable (lineBreaks t))
    let rest := skipLines (t.drop name.length)
    if rawWord rest = "in".toList then
      let (words, rest) ←
        readWords r (cutCommand r fun r => readList r budget) (rest.length + 1)
          (rest.drop 2)
      let (body, rest) ← readBody r budget (← skipSeparator true rest)
      return (.each (r.lineAt t) name (some words) body, rest)
    else
      let (body, rest) ← readBody r budget (← skipSeparator false rest)
      return (.each (r.lineAt t) name none body, rest)

/-- A compound command, if one comes next. -/
def readCompound? (r : Reading) :
    Nat → Text → Except SyntaxError (Option (Statement × Text))
  | 0, _ => .error (.endOfFile none)
  | budget + 1, t => do
    match String.ofList (rawWord t) with
    | "if" => return some (← readBranches r budget (t.drop 2))
    | "while" => do
      let (test, rest) ← readFilledList r "do" budget (t.drop 5)
      let (body, rest) ← readBody r budget rest
      return some (.loop false test body, rest)
    | "until" => do
      let (test, rest) ← readFilledList r "do" budget (t.drop 5)
      let (body, rest) ← readBody r budget rest
      return some (.loop true test body, rest)
    | "for" => return some (← readEach r budget (t.drop 3))
    | "case" => do
      let (subject, rest) ← readWord r
          (cutCommand r fun r => readList r budget) (skipBlank (t.drop 4))
      if subject.isEmpty then
        throw (unexpected (some "word".toList) (t.drop 4))
      let rest ← expectWord "in" (skipLines rest)
      let (clauses, rest) ← readClauses r budget rest
      return some (.choice (r.lineAt t) subject clauses, rest)
    | "\x7b" => do
      let (body, rest) ← readFilledList r "\x7d" budget (t.drop 1)
      return some (body, ← expectWord "\x7d" rest)
    | _ =>
      match t with
      | '(' :: rest => do
        let (body, rest) ← readFilledList r ")" budget rest
        match skipBlank rest with
        | ')' :: rest => return some (.subshell body, rest)
        | rest => throw (unexpected (some [')']) rest)
      | _ => return none

/-- A command. -/
def readCommand (r : Reading) :
    Nat → Text → Except SyntaxError (Statement × Text)
  | 0, _ => .error (.endOfFile none)
  | budget + 1, t => do
    let t := skipBlank t
    if let some (r, t) := cutAlias? r t then return ← readCommand r budget t
    if (['!'] :: "in".toList :: closingWords).contains (rawWord t) then
      throw (unexpected none t)
    let cut := cutCommand r fun r => readList r budget
    match ← readCompound? r budget t with
    | some (s, rest) =>
      let (rs, rest) ← readRedirections r cut (rest.length + 1) rest
      return (withRedirections (r.lineAt t) s rs, rest)
    | none =>
      match ← readFunctionName? r cut t with
      | some (name, rest) =>
        let (body, rest) ← readCommand r budget (skipLines rest)
        return (.define name body, rest)
      | none =>
        let (s, rest) ← readSimple r cut (t.length + 1)
            ⟨r.lineAt t, [], [], []⟩ t
        if s.isEmpty then throw (unexpected none t)
        return (.simple s, rest)

end

/-- The budget that is more than enough for a source. -/
def budgetFor (t : Text) : Nat := 8 * t.length + 16

/-- How the commands between parentheses are cut from a source. -/
def commandCut (r : Reading) : CommandCut :=
  cutCommand r fun r t => readList r (budgetFor t) t

/-- The commands of the next line, and the source after it. The budget
bounds the number of commands. -/
def readLine (r : Reading) : Nat → Text → Except SyntaxError (Statement × Text)
  | 0, _ => .error (.endOfFile none)
  | budget + 1, t => do
    let t := skipBlank t
    match t with
    | [] => return (.nothing, [])
    | '\n' :: rest => return (.nothing, afterDocuments rest)
    | _ =>
      let (first, t) ← readLogical r (budgetFor t) t
      match skipBlank t with
      | [] => return (first, [])
      | '\n' :: rest => return (first, afterDocuments rest)
      | ';' :: ';' :: rest => throw (unexpected none (';' :: ';' :: rest))
      | ';' :: rest => do
        let (more, rest) ← readLine r budget rest
        return (.sequence first more, rest)
      | '&' :: rest => do
        let (more, rest) ← readLine r budget rest
        return (.sequence (.background first) more, rest)
      | rest => refuseToken r (commandCut r) true none rest

-- ======================================================== sources in pieces

/-- How long so many lines of a source are, counted on from a length. -/
def lengthOfLines : Nat → Nat → Text → Nat
  | 0, length, _ => length
  | _, length, [] => length
  | n + 1, length, c :: t =>
      lengthOfLines (if c = '\n' then n else n + 1) (length + 1) t

/-- The source cut after some line breaks. -/
def cutLines (n : Nat) (t : Text) : Text × Text :=
  t.splitAt (lengthOfLines n 0 t)

/-- Can more source follow in the last line of a piece? -/
def goesOn (piece : Text) : Bool :=
  match piece.reverse with
  | '\n' :: '\\' :: _ => true
  | _ => false

/-- What a reading makes of the next line: its commands, the source after
it, and how many lines that source is away. -/
structure LineRead where
  statement : Statement
  rest : Text
  lines : Nat

/-- The commands of the next line. Only as much of the source is looked at
as they need: first one line, and then twice as many each time. The budget
bounds how often. -/
def readNext (first : Nat) (aliases : List (Text × Text)) :
    Nat → Nat → Text → Except (SyntaxError × Nat) LineRead
  | 0, _, _ => .error (.endOfFile none, first)
  | budget + 1, count, source => do
    let (piece, later) := cutLines count source
    if !later.isEmpty && goesOn piece then
      readNext first aliases budget (2 * count) source
    else
      let r : Reading :=
        { Reading.whole first aliases piece with isAll := later.isEmpty }
      match readLine r (piece.length + 1) piece with
      | .ok (s, rest) =>
          return ⟨s, rest ++ later, lineBreaks piece - lineBreaks rest⟩
      | .error e =>
        if !later.isEmpty && e.asksForMore then
          readNext first aliases budget (2 * count) source
        else throw (e, r.lineOf e)

end GridScript.Shell
