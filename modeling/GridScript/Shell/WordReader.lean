/-
Reading words. A word ends at a blank or an operator, unless they are
quoted: by a backslash one character is quoted, by apostrophes everything,
and by quotation marks everything but `$`, the backquote and some
backslashes.

A parameter in braces ends at the first brace that is not quoted; what is in
the braces is read like the text around them, except that apostrophes do not
quote in what is quoted itself. Pairs of braces do not count, and so a brace
that is to be part of the text needs quotes.
-/
import GridScript.Shell.Syntax

namespace GridScript.Shell

-- ======================================================== mistakes

/-- What is wrong with a source. Where it matters, an error says how many
lines the source still had. -/
inductive SyntaxError where
  | unterminated
  | openBackquote
  | openArithmetic
  | missingBrace
  | badLoopVariable (left : Nat)
  | badFunctionName (left : Nat)
  /-- A token where another one, if it is known, was needed. -/
  | unexpected (token : Text) (needed : Option Text) (left : Nat)
  | endOfFile (needed : Option Text)
  /-- What is wrong within a source of its own, where no more can follow, and
  the line that this is noticed in. -/
  | within (line : Nat) (reason : Text)
  deriving DecidableEq

namespace SyntaxError

/-- What else was needed; a token by itself is shown in quotation marks. -/
def expecting : Option Text → Text
  | some needed =>
    let shown :=
      if needed = "word".toList then needed else '"' :: needed ++ ['"']
    " (expecting ".toList ++ shown ++ [')']
  | none => []

/-- The wording of what is wrong. -/
def message : SyntaxError → Text
  | unterminated => "Syntax error: Unterminated quoted string".toList
  | openBackquote => "Syntax error: EOF in backquote substitution".toList
  | openArithmetic => "Syntax error: Missing '))'".toList
  | missingBrace => "Syntax error: Missing '\x7d'".toList
  | badLoopVariable _ => "Syntax error: Bad for loop variable".toList
  | badFunctionName _ => "Syntax error: Bad function name".toList
  | unexpected token needed _ =>
    "Syntax error: ".toList ++ token ++ " unexpected".toList
      ++ expecting needed
  | endOfFile needed =>
      "Syntax error: end of file unexpected".toList ++ expecting needed
  | within _ reason => reason

/-- How many lines the source had left. -/
def left : SyntaxError → Nat
  | badLoopVariable n => n
  | badFunctionName n => n
  | unexpected _ _ n => n
  | _ => 0

/-- The error in a source that more lines follow. -/
def before (lines : Nat) : SyntaxError → SyntaxError
  | badLoopVariable n => badLoopVariable (n + lines)
  | badFunctionName n => badFunctionName (n + lines)
  | unexpected token needed n => unexpected token needed (n + lines)
  | e => e

/-- Could more source have been right? -/
def asksForMore : SyntaxError → Bool
  | unterminated => true
  | openBackquote => true
  | openArithmetic => true
  | missingBrace => true
  | endOfFile _ => true
  | _ => false

end SyntaxError

/-- How commands inside a word are found in the source. -/
structure CommandCut where
  /-- The commands from after an open parenthesis on to the one that ends
  them, and what follows that. -/
  toParenthesis : Text → Except SyntaxError (Text × Text)
  /-- As much of what was between backquotes as is commands. -/
  ofBackquotes : Text → Except SyntaxError Text

/-- What text is read for. -/
inductive Purpose where
  /-- A word, which is expanded. -/
  | word
  /-- The word that ends a document, in which nothing is expanded. -/
  | delimiter
  /-- A document. -/
  | document
  deriving DecidableEq

/-- How the source is read: the number of its first line, how many line
breaks it has, whether there is no more of it, what some words stand for
where a command begins, and what text is read for. -/
structure Reading where
  first : Nat
  breaks : Nat
  isAll : Bool
  aliases : List (Text × Text)
  purpose : Purpose

/-- What stands in a source for each line of a document that was taken out of
it: a character that no source has. -/
def takenLine : Char := '\x00'

/-- How many line breaks a source has. -/
def lineBreaks (t : Text) : Nat :=
  t.countP fun c => c == '\n' || c == takenLine

/-- The source from a new line on, without the documents before that. -/
def afterDocuments (t : Text) : Text := t.dropWhile (· == takenLine)

namespace Reading

/-- The reading of a whole source. -/
def whole (first : Nat) (aliases : List (Text × Text)) (t : Text) : Reading :=
  ⟨first, lineBreaks t, true, aliases, .word⟩

/-- The number of the line that this much of the source begins in. -/
def lineAt (r : Reading) (rest : Text) : Nat :=
  r.first + (r.breaks - lineBreaks rest)

/-- The number of the line that an error is noticed in. -/
def lineOf (r : Reading) : SyntaxError → Nat
  | .within line _ => line
  | e => r.first + (r.breaks - e.left)

/-- An error where the source ends too early. A document ends with its last
line, whatever follows, but the line after it has been looked at. -/
def endError (r : Reading) (e : SyntaxError) : SyntaxError :=
  if r.purpose = .document then
    .within (r.first + r.breaks + if r.isAll then 0 else 1) e.message
  else e

/-- What is wrong where quotes are never closed. Only a brace can be
missing from a document, whose end closes quotes. -/
def openQuotes (r : Reading) : SyntaxError :=
  r.endError (if r.purpose = .document then .missingBrace else .unterminated)

end Reading

-- ======================================================== characters

/-- Does the character end a word that is not quoted? -/
def isMeta (c : Char) : Bool := " \t\n;&|<>()".toList.contains c

/-- Can a backslash quote the character between quotation marks? -/
def isEscapable (c : Char) : Bool := "$\x60\"\\".toList.contains c

/-- Is this the name of a parameter that is no variable? -/
def isSpecialParameter (c : Char) : Bool := "@*#?-$!".toList.contains c

/-- Does the character say what stands in place of a parameter's value? -/
def isInstead (c : Char) : Bool := "-=?+".toList.contains c

-- ======================================================== joined lines

/-- The source without the line breaks in front of it that backslashes
quote. -/
def joined : Text → Text
  | '\\' :: '\n' :: t => joined t
  | t => t

/-- A character in front of what was cut. -/
def inFront (c : Char) (cut : Text × Text) : Text × Text := (c :: cut.1, cut.2)

/-- The characters that come next as long as they are of a kind, and what
follows them; line breaks that backslashes quote do not count. -/
def spanJoined (kind : Char → Bool) : Text → Text × Text
  | '\\' :: '\n' :: t => spanJoined kind t
  | c :: t => if kind c then inFront c (spanJoined kind t) else ([], c :: t)
  | [] => ([], [])

/-- The source between backquotes, and what follows them. Where the quotes
are quoted themselves, a backslash also quotes a quotation mark. -/
def backquoted? (quoted : Bool) : Text → Option (Text × Text)
  | [] => none
  | '\\' :: '\n' :: t => backquoted? quoted t
  | '\\' :: c :: t =>
    (backquoted? quoted t).map fun cut =>
      if isEscapable c && (quoted || c != '"') then inFront c cut
      else inFront '\\' (inFront c cut)
  | c :: t =>
      if c = '\x60' then some ([], t)
      else (backquoted? quoted t).map (inFront c)

-- ======================================================== parameters

/-- The form that follows a parameter's name, and the source of the operand
with the brace that ends it. -/
def parameterForm (t : Text) : ParameterForm × Text :=
  match joined t with
  | [] => (.unknown, [])
  | '\x7d' :: t => (.plain, '\x7d' :: t)
  | ':' :: t =>
    match joined t with
    | [] => (.unknown, [])
    | '\x7d' :: t => (.plain, t)
    | c :: t => (if isInstead c then .instead true c else .unknown, t)
  | '%' :: t =>
    match joined t with
    | '%' :: t => (.without true true, t)
    | t => (.without true false, t)
  | '#' :: t =>
    match joined t with
    | '#' :: t => (.without false true, t)
    | t => (.without false false, t)
  | c :: t => (if isInstead c then .instead false c else .unknown, t)

/-- The name of a variable or the number of an argument that comes next, and
what follows it. -/
def variableName (t : Text) : Text × Text :=
  if (t.head?.map Char.isDigit).getD false then spanJoined Char.isDigit t
  else spanJoined Text.isWordChar t

/-- The name and the form of a parameter after its first brace, and the
source of the operand with the brace that ends it. After a hash sign, the
length is meant if a name and the brace follow. -/
def parameterHead (t : Text) : Text × ParameterForm × Text :=
  match joined t with
  | [] => ([], .unknown, [])
  | '\x7d' :: t => ([], .unknown, '\x7d' :: t)
  | '#' :: t =>
    match joined t with
    | [] => (['#'], .unknown, [])
    | c :: t =>
      let after := joined t
      if Text.isWordChar c then
        let (name, rest) := variableName (c :: t)
        (name, if rest.head? = some '\x7d' then .length else .unknown, rest)
      else if c ≠ '\x7d' ∧ after.head? = some '\x7d' then
        ([c], if isSpecialParameter c then .length else .unknown, after)
      else (['#'], parameterForm (c :: t))
  | c :: t =>
    if Text.isWordChar c then
      let (name, rest) := variableName (c :: t)
      (name, parameterForm rest)
    else if isSpecialParameter c then ([c], parameterForm t)
    else ([], .unknown, t)

-- ======================================================== places

/-- Where text is read. -/
inductive Place where
  /-- In a word. -/
  | word
  /-- In the operand of a parameter, where no blank and no operator ends
  anything. -/
  | operand
  /-- In the operand of a parameter that is quoted, where apostrophes are
  plain; in further quotation marks or not. -/
  | quotedOperand (inMarks : Bool)
  /-- Between quotation marks. -/
  | quoted
  /-- In a document, where quotation marks are plain. -/
  | document
  /-- In an arithmetic expression, with so many open parentheses. -/
  | arithmetic (depth : Nat)
  deriving DecidableEq

/-- What a character does at a place. -/
inductive Role where
  | plain
  /-- The text at the place ends before the character. -/
  | bound
  /-- The text at the place ends with the character. -/
  | close
  /-- The text at the place ends with this parenthesis, if there is one
  more. -/
  | closeTwice
  /-- The character is not text, and the place becomes another one. -/
  | turn (next : Place)
  /-- The character is quoted text, and the place becomes another one. -/
  | move (next : Place)
  /-- The character begins text between quotation marks. -/
  | marks
  /-- The character begins text between apostrophes. -/
  | apostrophe
  | backslash
  | dollar
  | backquote
  deriving DecidableEq

namespace Place

/-- Is everything at the place quoted? -/
def isQuoted : Place → Bool
  | word => false
  | operand => false
  | _ => true

/-- Where the operand of a parameter at the place is read. -/
def ofOperand (place : Place) : ParameterForm → Place
  | .without _ _ => operand
  | _ => if place.isQuoted then quotedOperand false else operand

/-- What a quotation mark does at the place. -/
def markRole : Place → Role
  | word => .marks
  | operand => .marks
  | quotedOperand inMarks => .turn (quotedOperand !inMarks)
  | quoted => .close
  | _ => .plain

/-- What a closing brace does at the place. -/
def braceRole : Place → Role
  | operand => .close
  | quotedOperand inMarks => if inMarks then .plain else .close
  | _ => .plain

/-- What a parenthesis does at the place. -/
def parenthesisRole (place : Place) (opens : Bool) : Role :=
  match place, opens with
  | arithmetic depth, true => .move (arithmetic (depth + 1))
  | arithmetic 0, false => .closeTwice
  | arithmetic (depth + 1), false => .move (arithmetic depth)
  | _, _ => .plain

end Place

namespace Reading

/-- What a character does at a place. -/
def role (r : Reading) (place : Place) (c : Char) : Role :=
  if place = .word && isMeta c then .bound
  else if c = '\\' then .backslash
  else if c = '$' then if r.purpose = .delimiter then .plain else .dollar
  else if c = '\x60' then if r.purpose = .delimiter then .move place
  else .backquote
  else if c = '"' then place.markRole
  else if c = '\'' then if place.isQuoted then .plain else .apostrophe
  else if c = '\x7d' then place.braceRole
  else if c = '(' then place.parenthesisRole true
  else if c = ')' then place.parenthesisRole false
  else .plain

/-- Is the character plain text at a place? -/
def isPlain (r : Reading) (place : Place) (c : Char) : Bool :=
  r.role place c == .plain

/-- Can a backslash quote the character at a place? -/
def hasEscape (r : Reading) (place : Place) (c : Char) : Bool :=
  match place with
  | .word => true
  | .operand => true
  | .quotedOperand _ => isEscapable c || c == '\x7d'
  | .quoted => isEscapable c
  | .document => isEscapable c && c != '"'
  | .arithmetic _ => isEscapable c && (c != '"' || r.purpose != .document)

/-- What is missing if the source ends at a place, unless it may. -/
def missing? (r : Reading) : Place → Option SyntaxError
  | .word => none
  | .document => none
  | .operand => some (r.endError .missingBrace)
  | .arithmetic _ => some (r.endError .openArithmetic)
  | _ => some r.openQuotes

end Reading

-- ======================================================== home directories

/-- The home directory that a text begins with, if it does, and the text
after it. The name of a user ends at a slash and, in an assignment, at a
colon; `last` says that the word ends with the text. -/
def cutHome? (inAssignment last : Bool) (t : Text) :
    Option (WordPart × Text) :=
  let ends (c : Char) : Bool := c == '/' || (inAssignment && c == ':')
  match t with
  | '~' :: t =>
    let rest := t.dropWhile (!ends ·)
    if rest.isEmpty && !last then none
    else some (.home (t.takeWhile (!ends ·)), rest)
  | _ => none

/-- The parts of a text, with the home directories in it. -/
def homeParts (inAssignment last : Bool) (t : Text) : Word :=
  match cutHome? inAssignment last t with
  | some (part, rest) =>
      if rest.isEmpty then [part] else [part, .text rest false]
  | none => [.text t false]

/-- The parts of a text that may hold several paths after colons. -/
def pathParts (atStart last : Bool) (t : Text) : Word :=
  let pieces := Text.splitOn ':' t
  let count := pieces.length
  (pieces.zipIdx.map fun (piece, n) =>
    let parts := if n = 0 && !atStart then [WordPart.text piece false]
      else homeParts true (last || n + 1 < count) piece
    if n + 1 < count then parts ++ [.text [':'] false] else parts).flatten

/-- A word with the home directories that it names. -/
def withHomes : Word → Word
  | .text t false :: rest =>
    if t.head? = some '~' then homeParts false rest.isEmpty t ++ rest
    else .text t false :: rest
  | word => word

/-- The value of an assignment with the home directories that it names. -/
def withPathHomes (word : Word) : Word :=
  (word.zipIdx.map fun (part, n) =>
    match part with
    | .text t false =>
      if t.contains '~' then pathParts (n == 0) (n + 1 == word.length) t
      else [part]
    | _ => [part]).flatten

-- ======================================================== parts

/-- Does the part stand for the arguments, one by one? -/
def WordPart.isArguments : WordPart → Bool
  | parameter ['@'] .plain _ true => true
  | _ => false

/-- The parts between quotation marks. They make an argument even if nothing
is in them, unless they stand for the arguments only. -/
def quotedParts (parts : Word) : Word :=
  if !parts.isEmpty && parts.all WordPart.isArguments then parts
  else .text [] true :: parts

mutual

/-- The parts up to where the place ends, and what follows that. The budget
bounds their number. -/
def readParts (r : Reading) (cut : CommandCut) :
    Nat → Place → Text → Except SyntaxError (Word × Text)
  | 0, _, _ => .error (.endOfFile none)
  | _, place, [] =>
    match r.missing? place with
    | some e => .error e
    | none => .ok ([], [])
  | budget + 1, place, c :: t => do
    let goOn (parts : Word) (place : Place) (rest : Text) :
        Except SyntaxError (Word × Text) := do
      let (more, rest) ← readParts r cut budget place rest
      return (parts ++ more, rest)
    match r.role place c with
    | .plain =>
      goOn [.text (c :: t.takeWhile (r.isPlain place)) place.isQuoted] place
        (t.dropWhile (r.isPlain place))
    | .bound => return ([], c :: t)
    | .close => return ([], t)
    | .closeTwice =>
      match joined t with
      | ')' :: rest => return ([], rest)
      | rest => goOn [.text [c] true] place rest
    | .turn next => goOn [] next t
    | .move next => goOn [.text [c] true] next t
    | .marks => do
      let (parts, rest) ← readParts r cut budget .quoted t
      goOn (quotedParts parts) place rest
    | .apostrophe =>
      let rest := t.dropWhile (· != c)
      if rest.isEmpty then throw r.openQuotes
      goOn [.text (t.takeWhile (· != c)) true] place (rest.drop 1)
    | .backslash =>
      match t with
      | [] => goOn [.text [c] true] place []
      | '\n' :: rest => goOn [] place rest
      | e :: rest =>
          goOn [.text (if r.hasEscape place e then [e] else [c, e]) true]
            place rest
    | .dollar => do
      let (part, rest) ← readDollar r cut budget place t
      goOn [part] place rest
    | .backquote =>
      match backquoted? place.isQuoted t with
      | none => throw .openBackquote
      | some (source, rest) =>
        goOn [.command 1 (← cut.ofBackquotes source) place.isQuoted] place rest

/-- What a dollar sign begins, after it; by itself it is plain text. -/
def readDollar (r : Reading) (cut : CommandCut) :
    Nat → Place → Text → Except SyntaxError (WordPart × Text)
  | 0, _, _ => .error (.endOfFile none)
  | budget + 1, place, t => do
    let quoted := place.isQuoted
    match joined t with
    | '(' :: t =>
      match joined t with
      | '(' :: t => do
        let (expression, rest) ← readParts r cut budget (.arithmetic 0) t
        return (.arithmetic expression quoted, rest)
      | t => do
        let (source, rest) ← cut.toParenthesis t
        return (.command (r.lineAt t) source quoted, rest)
    | '\x7b' :: t => do
      let (name, form, t) := parameterHead t
      let place := place.ofOperand form
      let (operand, rest) ← readParts r cut budget place t
      let operand := if place = .operand then withHomes operand else operand
      return (.parameter name form operand quoted, rest)
    | [] => return (.text ['$'] quoted, [])
    | c :: t =>
      if c.isDigit || isSpecialParameter c then
        return (.parameter [c] .plain [] quoted, t)
      else if Text.isWordStart c then
        let (name, rest) := variableName (c :: t)
        return (.parameter name .plain [] quoted, rest)
      else return (.text ['$'] quoted, c :: t)

end

-- ======================================================== words

/-- The parts of the word that comes next, before any home directory. -/
def readWordParts (r : Reading) (cut : CommandCut) (t : Text) :
    Except SyntaxError (Word × Text) :=
  readParts r cut (2 * t.length + 2) .word t

/-- The word that comes next. -/
def readWord (r : Reading) (cut : CommandCut) (t : Text) :
    Except SyntaxError (Word × Text) := do
  let (word, rest) ← readWordParts r cut t
  return (withHomes word, rest)

/-- A document as one word. -/
def documentWord (r : Reading) (cut : CommandCut) (t : Text) :
    Except SyntaxError Word :=
  (readParts { r with
      purpose := .document } cut (2 * t.length + 2) .document t).map (·.1)

end GridScript.Shell
