/-
Editing streams line by line by a script. The line at hand is changed by the
commands of the script one after the other; at their end it is printed and
the next one is read.
-/
import GridScript.Shell.EditScript
import GridScript.Shell.Utility.Lines

namespace GridScript.Shell

-- ======================================================== the state

/-- A line that is read: its text, whether it ends, and its file. -/
structure EditLine where
  text : Text
  ends : Bool
  file : Text

/-- The state of an editor. -/
structure Editing where
  /-- The lines that were not read yet. -/
  input : List EditLine
  /-- The number of the line at hand. -/
  line : Nat
  space : Text
  ends : Bool
  file : Text
  /-- The text that is kept, and whether it was a line that ends. -/
  hold : Text
  holdEnds : Bool
  /-- What was printed, the last first. -/
  output : List Text
  /-- Does the line that was printed last not end? -/
  isOpen : Bool
  /-- What is printed when the line is done. -/
  queue : List Text
  /-- The commands whose stretch of lines has begun, with its last line if
  that is known. -/
  active : List (Nat × Option Nat)
  /-- Was anything replaced since the line was read or a jump? -/
  replaced : Bool
  /-- The expression that was used last. -/
  search : Option SearchExpression
  /-- What was written to files. -/
  written : List (Text × Text)
  /-- The lines of files that are read one by one. -/
  readers : List (Text × List Text)

/-- How an editor goes on after a command. -/
inductive EditNext where
  /-- At a command. -/
  | goOn (place : Nat)
  /-- The line is done. -/
  | done (prints : Bool)
  /-- From the first command, with the line that is at hand. -/
  | restart
  | quit (prints : Bool) (code : Nat)

/-- What an editor works by. -/
structure Editor where
  commands : Array EditCommand
  /-- Are lines printed only if commands ask for it? -/
  quiet : Bool
  /-- What ends a line. -/
  lineEnd : Char
  /-- The files that commands read, and what they hold. -/
  files : List (Text × Text)

namespace Editing

-- ======================================================== printing

/-- Prints a text after the end of an open line. -/
def put (s : Editing) (t : Text) : Editing :=
  { s with
    output :=
      t :: (if s.isOpen then [['\n']] else []) ++ s.output, isOpen := false }

/-- Prints a line as the line at hand ends. -/
def putLine (s : Editing) (lineEnd : Char) (t : Text) : Editing :=
  { s.put (if s.ends then t ++ [lineEnd] else t) with isOpen := !s.ends }

/-- Prints what has been kept for the end of the line. -/
def flush (s : Editing) : Editing := { s.queue.foldl put s with queue := [] }

/-- Adds to what is written to a file. -/
def writeTo (s : Editing) (lineEnd : Char) (file t : Text) : Editing :=
  if file = "/dev/stdout".toList then s.putLine lineEnd t
  else
    let before := (s.written.lookup file).getD []
    { s with
      written :=
        (file, before ++ t ++ ['\n']) :: s.written.filter (·.1 != file) }

-- ======================================================== reading

/-- The state with the next line, if there is one. -/
def next? (s : Editing) : Option Editing :=
  match s.input with
  | [] => none
  | l :: rest =>
    some { s.flush with
      input := rest, line := s.line + 1, space := l.text
      ends := l.ends, file := l.file }

/-- Is an expression found in the line? -/
def hasFound (s : Editing) (e : Option SearchExpression) : Bool × Editing :=
  match e <|> s.search with
  | some e => (e.isIn s.space, { s with search := some e })
  | none => (false, s)

/-- Does an address tell the line? -/
def isAt (s : Editing) : EditAddress → Bool × Editing
  | .line n => (s.line == n, s)
  | .last => (s.input.isEmpty, s)
  | .found e => s.hasFound e
  | .step first step =>
    (if step = 0 then s.line == first
      else decide (first ≤ s.line) && (s.line - first) % step == 0, s)
  | _ => (false, s)

/-- The state with the stretch of a command begun or ended. -/
def withActive (s : Editing) (place : Nat) (stretch : Option (Option Nat)) :
    Editing :=
  { s with active :=
      (stretch.map (place, ·)).toList ++ s.active.filter (·.1 != place) }

/-- The last line of a stretch that begins at the line, if that is known. -/
def lastOfStretch? (s : Editing) : EditAddress → Option Nat
  | .line n => some n
  | .plus n => some (s.line + n)
  | .multiple n => some (if n = 0 then s.line else (s.line / n + 1) * n)
  | _ => none

/-- Is the line in the stretch of a command that has begun? -/
def inStretch (s : Editing) (place : Nat) (last : Option Nat)
    (second : EditAddress) :
    Bool × Editing :=
  match last with
  | some n =>
      (decide (s.line ≤ n), if n ≤ s.line then s.withActive place none else s)
  | none =>
    let (ends, s) := s.isAt second
    (true, if ends then s.withActive place none else s)

/-- Is a command for the line? -/
def accepts (s : Editing) (place : Nat) (guard : EditGuard) : Bool × Editing :=
  let (holds, s) := match guard.first, guard.second with
    | none, _ => (true, s)
    | some first, none => s.isAt first
    | some first, some second =>
      match s.active.lookup place with
      | some last => s.inStretch place last second
      | none =>
        if first = .line 0 && s.line = 1 then
          (s.withActive place (some none)).inStretch place none
          second
        else
          let (begins, s) := s.isAt first
          if !begins then (false, s)
          else
            match s.lastOfStretch? second with
            | some n =>
                (true, if n ≤ s.line then s
                  else s.withActive place (some (some n)))
            | none => (true, s.withActive place (some none))
  (holds != guard.negated, s)

end Editing

-- ======================================================== replacing

/-- A text with the case of its letters changed. -/
def CaseChange.of : CaseChange → Text → Text
  | none, t => t
  | upper, t => Text.upper t
  | lower, t => Text.lower t

/-- What takes the place of a match from `p` to `q`; the changes of case in
force are given. -/
def replacementText (p q : SearchPlace) :
    CaseChange → CaseChange → List ReplacementPart → Text
  | _, _, [] => []
  | all, one, part :: parts =>
    let put (t : Text) : Text :=
      let first := t.take 1
      (if one = .none then all.of first else one.of first)
        ++ all.of (t.drop 1) ++
        replacementText p q all (if t.isEmpty then one else .none) parts
    match part with
    | .text t => put t
    | .group 0 => put (p.rest.take (q.offset - p.offset))
    | .group n => put ((q.groups.lookup n).getD [])
    | .all change => replacementText p q change one parts
    | .one change => replacementText p q all change parts

/-- The text from a place on with matches replaced, and whether any was;
`count` matches were found before, and the last one ended at `previous`. The
budget bounds the length. -/
def Substitution.from (s : Substitution) (e : SearchExpression) :
    Nat → Nat → Option Nat → SearchPlace → Text × Bool
  | 0, _, _, p => (p.rest, false)
  | budget + 1, count, previous, p =>
    match e.find? { p with groups := [] } with
    | none => (p.rest, false)
    | some (b, q) =>
      let skipped := p.rest.take (b.offset - p.offset)
      let isEmpty := q.offset == b.offset
      let goOn (front : Text) (changed : Bool) (count : Nat) : Text × Bool :=
        if isEmpty then
          if q.rest.isEmpty then (front, changed)
          else
            let (t, more) := s.from e budget count none (q.advance 1)
            (front ++ q.rest.take 1 ++ t, changed || more)
        else
          let (t, more) := s.from e budget count (some q.offset) q
          (front ++ t, changed || more)
      if isEmpty && previous == some b.offset then goOn skipped false count
      else
        let n := count + 1
        let counts :=
          if s.everywhere then decide (s.ordinal ≤ n) else n == max s.ordinal 1
        if !counts then
          goOn
            (skipped
              ++ p.rest.drop skipped.length |>.take (q.offset - p.offset))
          false n
        else
          let here := skipped ++ replacementText b q .none .none s.replacement
          if s.everywhere then goOn here true n else (here ++ q.rest, true)

-- ======================================================== commands

/-- A text as it is shown without doubt, in lines of a width. -/
def unambiguous (t : Text) : Text :=
  let shown (b : UInt8) : Text :=
    match b.toNat with
    | 7 => "\\a".toList
    | 8 => "\\b".toList
    | 9 => "\\t".toList
    | 10 => "\\n".toList
    | 11 => "\\v".toList
    | 12 => "\\f".toList
    | 13 => "\\r".toList
    | 92 => "\\\\".toList
    | n =>
      if 32 ≤ n && n < 127 then [Char.ofNat n]
      else
        let digits := Nat.toDigits 8 n
        '\\' :: List.replicate (3 - digits.length) '0' ++ digits
  let (out, _) := (Text.toBytes t).foldl (fun (out, width) b =>
    let piece := shown b
    if 69 < width + piece.length then
      ((out ++ "\\\n".toList ++ piece), piece.length)
    else (out ++ piece, width + piece.length)) (([], 0) : Text × Nat)
  out ++ ['$']

namespace Editor

/-- The place after the end of the block that begins at a place. -/
def afterBlock (e : Editor) (place : Nat) : Nat :=
  let rest := (e.commands.toList.drop (place + 1)).zipIdx
  let step (found : Nat × Option Nat)
      (c : EditCommand × Nat) : Nat × Option Nat :=
    match found, c.1.action with
    | (_, some n), _ => (0, some n)
    | (depth, none), .opening => (depth + 1, none)
    | (depth, none), .closing =>
        if depth = 0 then (0, some c.2) else (depth - 1, none)
    | found, _ => found
  match (rest.foldl step (0, none)).2 with
  | some n => place + 1 + n + 1
  | none => e.commands.size

/-- The place of a label; the end of the commands if there is no name. -/
def placeOf (e : Editor) (name : Text) : Nat :=
  if name.isEmpty then e.commands.size
  else
    (e.commands.findIdx? fun c => c.action == .label name).getD e.commands.size

/-- The line up to its first line end, and the rest if there is one. -/
def firstPart (t : Text) : Text × Option Text :=
  match Text.cutAtFirst? '\n' t with
  | some (front, rest) => (front, some rest)
  | none => (t, none)

/-- What a letter by itself does at a place. -/
def runPlain (e : Editor) (place : Nat) (s : Editing) (c : Char) :
    EditNext × Editing :=
  let goOn (s : Editing) : EditNext × Editing := (.goOn (place + 1), s)
  match c with
  | '=' => goOn (s.put (Number.decimal s.line ++ ['\n']))
  | 'd' => (.done false, s)
  | 'D' =>
    match firstPart s.space with
    | (_, some rest) => (.restart, { s with space := rest })
    | _ => (.done false, s)
  | 'F' => goOn (s.put (s.file ++ ['\n']))
  | 'g' => goOn { s with space := s.hold, ends := s.holdEnds }
  | 'G' =>
      goOn { s with space := s.space ++ '\n' :: s.hold, ends := s.holdEnds }
  | 'h' => goOn { s with hold := s.space, holdEnds := s.ends }
  | 'H' =>
      goOn { s with hold := s.hold ++ '\n' :: s.space, holdEnds := s.ends }
  | 'x' => goOn { s with
      space := s.hold, ends := s.holdEnds, hold := s.space
      holdEnds := s.ends }
  | 'l' => goOn (s.put (unambiguous s.space ++ ['\n']))
  | 'n' =>
    if s.input.isEmpty then (.quit true 0, s)
    else
      let s := if e.quiet then s else s.putLine e.lineEnd s.space
      goOn (s.next?.getD s)
  | 'N' =>
    if s.input.isEmpty then (.quit true 0, s)
    else
      let before := s.space
      let s := s.next?.getD s
      goOn { s with space := before ++ e.lineEnd :: s.space }
  | 'p' => goOn (s.putLine e.lineEnd s.space)
  | 'P' => goOn (s.put ((firstPart s.space).1 ++ ['\n']))
  | 'z' => goOn { s with space := [] }
  | _ => goOn s

/-- Replaces in the line at hand. -/
def runSubstitution (e : Editor) (s : Editing) (sub : Substitution) :
    Editing :=
  match sub.pattern <|> s.search with
  | none => s
  | some pattern =>
    let s := { s with search := some pattern }
    let (t, changed) :=
      sub.from pattern (2 * s.space.length + 2) 0 none ⟨[], s.space, []⟩
    if !changed then s
    else
      let s := { s with space := t, replaced := true }
      let s := if sub.prints then s.putLine e.lineEnd t else s
      match sub.file with
      | some file => s.writeTo e.lineEnd file t
      | none => s

/-- What the command at a place does. -/
def runAction (e : Editor) (place : Nat) (s : Editing) (action : EditAction) :
    EditNext × Editing :=
  let goOn (s : Editing) : EditNext × Editing := (.goOn (place + 1), s)
  match action with
  | .plain c => e.runPlain place s c
  | .text 'a' t => goOn { s with queue := s.queue ++ [t] }
  | .text 'i' t => goOn (s.put t)
  | .text _ t =>
    (.done false, if (s.active.lookup place).isNone then s.put t else s)
  | .jump c name =>
    let jumps := c = 'b' || s.replaced == (c == 't')
    let s := if c = 'b' then s else { s with replaced := false }
    if jumps then (.goOn (e.placeOf name), s) else goOn s
  | .label _ => goOn s
  | .file 'r' name =>
      goOn { s with queue := s.queue ++ ((e.files.lookup name).toList) }
  | .file 'R' name =>
    match s.readers.lookup name with
    | some (l :: rest) =>
      goOn { s with
        queue := s.queue ++ [l ++ ['\n']]
        readers := (name, rest) :: s.readers.filter (·.1 != name) }
    | _ => goOn s
  | .file 'W' name => goOn (s.writeTo e.lineEnd name (firstPart s.space).1)
  | .file _ name => goOn (s.writeTo e.lineEnd name s.space)
  | .quit c code => (.quit (c = 'q') code, s)
  | .substitute sub => goOn (e.runSubstitution s sub)
  | .exchange source target =>
    goOn { s with space := s.space.map fun c =>
      (((source.zip target).lookup c)).getD c }
  | .opening => goOn s
  | .closing => goOn s

/-- The state after the line at hand is done. -/
def finishLine (e : Editor) (prints : Bool) (s : Editing) : Editing :=
  (if prints && !e.quiet then s.putLine e.lineEnd s.space else s).flush

/-- Runs the commands from a place on until the input or the script ends:
the state then, and the code; none if that takes too long. -/
def runFrom (e : Editor) : Nat → Nat → Editing → Option (Option Nat × Editing)
  | 0, _, _ => none
  | budget + 1, place, s =>
    let nextLine (prints : Bool) (s : Editing) : Option
        (Option Nat × Editing) :=
      let s := e.finishLine prints s
      match s.next? with
      | some s => runFrom e budget 0 { s with replaced := false }
      | none => some (none, s)
    match e.commands[place]? with
    | none => nextLine true s
    | some c =>
      let (holds, s) := s.accepts place c.guard
      if !holds then
        runFrom e budget
          (if c.action = .opening then e.afterBlock place else place + 1) s
      else
        match e.runAction place s c.action with
        | (.goOn place, s) => runFrom e budget place s
        | (.done prints, s) => nextLine prints s
        | (.restart, s) => runFrom e budget 0 s.flush
        | (.quit prints code, s) =>
            some (some code, if prints then e.finishLine true s else s)

/-- How many commands may be run. -/
def commandLimit : Nat := 1000000

/-- Edits lines. -/
def edit (e : Editor) (input : List EditLine) :
    Option (Option Nat × Editing) :=
  let readers :=
    e.files.map fun (name, t) =>
      (name, (Text.splitOn '\n' (Text.dropLast '\n' t)))
  let start : Editing :=
    ⟨input, 0, [], true, ['-'], [], true, [], false, [], [], false, none, [],
      readers⟩
  match start.next? with
  | some s => e.runFrom commandLimit 0 s
  | none => some (none, start)

end Editor

-- ======================================================== the program

section Utilities

variable {m : Type → Type} [Monad m] [FileTree m]

/-- The lines of a stream that comes from a file. -/
def editLines (lineEnd : Char) (file : Text) (s : Stream) : List EditLine :=
  let bytes := if s.isEndless then s.take 100000 else s.bytes
  let pieces := Text.splitOn lineEnd (Stream.decode bytes)
  let whole := (pieces.dropLast).map fun t => ⟨t, true, file⟩
  match pieces.getLast? with
  | some [] => whole
  | some t => whole ++ [⟨t, false, file⟩]
  | none => whole

/-- What a script asks for, one piece of it after the other. -/
def scriptPieces (self : Text) (r : OptionsRead) :
    Eval m (Except Unit (List (Text × Text) × List Text)) := do
  let mut pieces : List (Text × Text) := []
  for o in r.options do
    if o.letter = 'e' then
      pieces := pieces ++ [("-e expression #".toList, o.operand)]
    if o.letter = 'f' then
      match ← openFile o.operand with
      | .ok stream =>
        pieces := pieces ++ [("file ".toList ++ o.operand ++ " line ".toList,
          Text.dropLast '\n' (Stream.decode stream.bytes))]
      | .error e =>
        protest self
          ("couldn't open file ".toList ++ o.operand ++ ": ".toList
            ++ reasonText e)
        return .error ()
  if pieces.isEmpty then
    match r.operands with
    | t :: rest => return .ok ([("-e expression #".toList, t)], rest)
    | [] => return .ok ([], [])
  else return .ok (pieces, r.operands)

/-- Where in the pieces of a script a place is: the piece, counted from one,
and the characters in it up to the place. -/
def placeInPieces : Nat → Nat → List Text → Nat × Nat
  | n, offset, t :: next :: rest =>
    if t.length < offset then
      placeInPieces (n + 1) (offset - (t.length + 1)) (next :: rest)
    else (n, offset)
  | n, offset, _ => (n, offset)

/-- The complaint about a script. -/
def scriptComplaint (pieces : List (Text × Text)) (fault : EditFault) : Text :=
  let whole := Text.joinWith ['\n'] (pieces.map (·.2))
  let used := whole.length - fault.left
  let (n, place) := placeInPieces 1 used (pieces.map (·.2))
  let (kind, t) := pieces.getD (n - 1) ([], [])
  let isUnmatched := fault.message = "unmatched \x60\x7b'".toList
  if kind.head? = some '-' then
    kind ++ Number.decimal n ++ ", char ".toList ++
      Number.decimal (if isUnmatched then 0 else place) ++ ": ".toList
        ++ fault.message
  else
    kind ++ Number.decimal ((t.take (place - 1)).count '\n' + 1) ++ ": ".toList
      ++ fault.message

/-- The files that commands read. -/
def filesRead (commands : List EditCommand) : List Text :=
  commands.filterMap fun c =>
    match c.action with
    | .file 'r' name => some name
    | .file 'R' name => some name
    | _ => none

/-- The files that commands write. -/
def filesWritten (commands : List EditCommand) : List Text :=
  commands.filterMap fun c =>
    match c.action with
    | .file 'w' name => some name
    | .file 'W' name => some name
    | .substitute s => s.file
    | _ => none

/-- Edits files in place, each by itself. -/
def editInPlace (self : Text) (e : Editor) (suffix : Text)
    (operands : List Text) :
    Eval m Nat := do
  let mut code := 0
  for operand in operands do
    match ← openFile operand with
    | .error .isDirectory =>
      protest self
        ("couldn't edit ".toList ++ operand ++ ": not a regular file".toList)
      code := 4
    | .error reason =>
      protest self
        ("can't read ".toList ++ operand ++ ": ".toList ++ reasonText reason)
      code := 2
    | .ok stream =>
      match e.edit (editLines e.lineEnd operand stream) with
      | none => throw .unfinished
      | some (ended, s) =>
        if !suffix.isEmpty then
          let _ ← writeFile (operand ++ suffix) false stream
        let left :=
          s.input.flatMap fun l => l.text ++ if l.ends then [e.lineEnd] else []
        let _ ← writeFile operand false
            (.ofText (s.output.reverse.flatten ++ left))
        for (file, t) in s.written do let _ ← writeFile file false (.ofText t)
        if let some n := ended then return n
  return code

/-- Edits streams by a script. -/
def sed : Utility m := fun self arguments => do
  let usage : Text := "Usage: ".toList ++ self ++
    " [OPTION]... \x7bscript-only-if-no-other-script\x7d [input-file]...\n\n".toList
  let table := OptionTable.of "bsnrzuEe:f:l:i::"
    [("quiet", 'n'), ("silent", 'n'), ("expression", 'e'), ("file", 'f'),
     ("in-place", 'i'), ("regexp-extended", 'E'), ("separate", 's'),
     ("null-data", 'z'), ("unbuffered", 'u'),
     ("line-length", 'l'), ("posix", 'P'), ("debug", 'D')]
  match (withQuestions { table with silent := ['P', 'D'] }).read arguments with
  | .error fault =>
    protest self fault.message
    emitText 2 usage
    return 1
  | .ok r =>
    if ← answers self r
        " \x7bscript-only-if-no-other-script\x7d [input-file]..." then
      return 0
    match ← scriptPieces self r with
    | .error _ => return 4
    | .ok ([], _) =>
      emitText 2 usage
      return 1
    | .ok (pieces, operands) =>
      let source := Text.joinWith ['\n'] (pieces.map (·.2))
      let extended := r.has 'E' || r.has 'r'
      match readCommands extended (source.length + 1) 0 source with
      | .error fault =>
        protest self (scriptComplaint pieces fault)
        return 1
      | .ok commands =>
        if let some label := missingLabel? commands then
          protest self
            ("can't find label for jump to \x60".toList ++ label ++ ['\''])
          return 4
        if refersToNothing commands then
          protest self
            "-e expression #1, char 0: no previous regular expression".toList
          return 1
        let mut files : List (Text × Text) := []
        for name in filesRead commands do
          if name != "/dev/stdin".toList then
            if let .ok stream ← openFile name then
              files := files ++ [(name, Stream.decode stream.bytes)]
        let lineEnd := if r.has 'z' then '\x00' else '\n'
        let quiet :=
          r.has 'n' || ["#n".toList].contains (source.takeWhile (· != '\n'))
        let e : Editor := ⟨commands.toArray, quiet, lineEnd, files⟩
        if r.has 'i' then
          return ← editInPlace self e ((r.operand? 'i').getD []) operands
        let mut lines : List EditLine := []
        let mut code := 0
        let mut endless := false
        for operand in if operands.isEmpty then [['-']] else operands do
          match ← if operand = ['-'] then pure (.ok (← drain 0))
            else openFile operand with
          | .ok stream =>
            endless := endless || stream.isEndless
            lines := lines ++ editLines lineEnd operand stream
          | .error .isDirectory =>
            protest self
              ("read error on ".toList ++ operand ++ ": Is a directory".toList)
            code := 4
            break
          | .error reason =>
            protest self
              ("can't read ".toList ++ operand ++ ": ".toList
                ++ reasonText reason)
            code := 2
        match e.edit lines with
        | none => throw .unfinished
        | some (ended, s) =>
          if endless && ended.isNone then throw .unfinished
          emitText 1 s.output.reverse.flatten
          for file in filesWritten commands do
            if file != "/dev/stdout".toList then
              let _ ← writeFile file false
                  (.ofText ((s.written.lookup file).getD []))
          return ended.getD code

end Utilities

end GridScript.Shell
