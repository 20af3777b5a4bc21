/-
Programs that look at streams line by line: they search, order, number, cut
and join lines.
-/
import GridScript.Shell.Numeral
import GridScript.Shell.Search
import GridScript.Shell.Utility.Streams
import GridScript.Shell.Utility.Tree

namespace GridScript.Shell

section Utilities

variable {m : Type → Type} [Monad m] [FileTree m]

-- ======================================================== searching

/-- The source of an expression for lines in lower case. What a backslash
stands in front of keeps its case. -/
def foldedSource : Text → Text
  | '\\' :: c :: t => '\\' :: c :: foldedSource t
  | c :: t => c.toLower :: foldedSource t
  | [] => []

/-- How lines are compared with expressions. -/
structure LineSearch where
  expressions : List SearchExpression
  folds : Bool
  wholeWords : Bool
  wholeLines : Bool

namespace LineSearch

/-- Can a match begin and end at these places? -/
def accepts (s : LineSearch) (p q : SearchPlace) : Bool :=
  (!s.wholeWords || (!p.afterWordChar && !q.atWordChar)) &&
    (!s.wholeLines || (p.before.isEmpty && q.rest.isEmpty))

/-- The end of the longest match that begins at a place. -/
def endAt? (s : LineSearch) (p : SearchPlace) : Option SearchPlace :=
  ((s.expressions.flatMap (·.ends p)).filter (s.accepts p)).foldl
    (fun best q =>
    match best with
    | some b => if b.offset < q.offset then some q else some b
    | none => some q) none

/-- The stretches of a line that match, each as its beginning and its
length. The budget bounds how far the line is searched. -/
def found (s : LineSearch) : Nat → SearchPlace → List (Nat × Nat)
  | 0, _ => []
  | budget + 1, p =>
    match s.endAt? p with
    | some q =>
      let here := (p.offset, q.offset - p.offset)
      if q.rest.isEmpty then [here]
      else if q.offset = p.offset then here :: found s budget (p.advance 1)
      else here :: found s budget q
    | none => if p.rest.isEmpty then [] else found s budget (p.advance 1)

/-- The stretches of a line that match. -/
def stretches (s : LineSearch) (line : Text) : List (Nat × Nat) :=
  found s (line.length + 2) ⟨[], if s.folds then Text.lower line else line, []⟩

end LineSearch

/-- What `grep` knows. -/
def grepOptions : OptionTable :=
  OptionTable.of "EFGPivcnqsowxe:f:lLhHm:A:B:C:rRzabyuUT"
    [("extended-regexp", 'E'), ("fixed-strings", 'F'), ("basic-regexp", 'G'),
     ("ignore-case", 'i'), ("invert-match", 'v'), ("count", 'c'),
     ("line-number", 'n'),
     ("quiet", 'q'), ("silent", 'q'), ("no-messages", 's'),
     ("only-matching", 'o'),
     ("word-regexp", 'w'), ("line-regexp", 'x'), ("regexp", 'e'),
     ("file", 'f'),
     ("files-with-matches", 'l'), ("files-without-match", 'L'),
     ("no-filename", 'h'),
     ("with-filename", 'H'), ("max-count", 'm'), ("recursive", 'r'),
     ("after-context", 'A'), ("before-context", 'B'), ("context", 'C')]

/-- Tells how `grep` is used. -/
def grepUsage : Eval m Nat := do
  emitText 2 ("Usage: grep [OPTION]... PATTERNS [FILE]...\n" ++
    "Try 'grep --help' for more information.\n").toList
  return 2

/-- The expressions of some sources. -/
def expressionsOf (r : OptionsRead) (extended : Bool) (sources : List Text) :
    Except SearchError (List SearchExpression) :=
  let folds := r.has 'i' || r.has 'y'
  sources.mapM fun t =>
    match r.lastOf? "EFG".toList with
    | some 'F' =>
        .ok (SearchExpression.plain (if folds then Text.lower t else t))
    | kind =>
        SearchExpression.read (kind = some 'E' || (kind.isNone && extended))
          (if folds then foldedSource t else t)

/-- How lines are printed that are found in one stream. -/
structure LineReport where
  /-- What stands in front of a line, apart from a mark. -/
  name : Option Text
  numbers : Bool
  /-- How many lines are printed before and after one that is found. -/
  context : Option (Nat × Nat)

namespace LineReport

/-- The report of a stream under its name, if names are asked for. -/
def of (r : OptionsRead) (name : Option Text) : LineReport :=
  let amount (c : Char) : Option Nat :=
    ((r.options.reverse.find? fun o => o.letter == c || o.letter == 'C').map
      (·.operand)).bind
      Number.wordOfDigits?
  let around := (amount 'B', amount 'A')
  { name
    numbers := r.has 'n'
    context := if around.1.isNone && around.2.isNone then none
      else some (around.1.getD 0, around.2.getD 0) }

/-- A line with what stands in front of it. -/
def line (p : LineReport) (mark : Char) (n : Nat) (t : Text) : Text :=
  ((p.name.map (· ++ [mark])).getD []) ++
    (if p.numbers then Number.decimal (n + 1) ++ [mark] else []) ++ t

/-- Which lines are near one that is found, those behind it to a number of
them. -/
def near (reach : Nat) (found : List Bool) : List Bool :=
  ((found.foldl (fun (marks, left) isFound =>
    let left := if isFound then reach + 1 else left - 1
    (decide (0 < left) :: marks, left)) (([], 0) : List Bool × Nat)).1).reverse

/-- The lines that are found, each with whether it is, and those around
them. A line that tells of a gap stands between others. -/
def withContext (p : LineReport) (before after : Nat)
    (lines : List (Text × Bool)) : List Text :=
  let found := lines.map (·.2)
  let isNear :=
    (near after found).zipWith (· || ·) (near before found.reverse).reverse
  let kept := ((lines.zip isNear).zipIdx.filter fun ((_, near), _) => near).map
    fun (((t, isFound), _), n) =>
      (n, p.line (if isFound then ':' else '-') n t)
  (kept.zip (none :: kept.map fun (n, _) => some n)).flatMap
    fun ((n, t), last) =>
      match last with
      | some m => if n = m + 1 then [t] else ["--".toList, t]
      | none => [t]

end LineReport

/-- Searches the lines of one stream and prints what is asked for, maybe
after other streams; gives whether anything was found. -/
def searchStream (r : OptionsRead) (search : LineSearch) (named follows : Bool)
    (name : Text)
    (stream : Stream) : Eval m Bool := do
  let lines ← linesOf stream
  let isFound (line : Text) : Bool :=
    !(search.stretches line).isEmpty != r.has 'v'
  let most := ((r.operand? 'm').bind sizeOf?).getD lines.length
  let found := (lines.zipIdx.filter fun (line, _) => isFound line).take most
  let shown := if name = ['-'] then "(standard input)".toList else name
  let report := LineReport.of r (if named then some shown else none)
  if r.has 'q' then return !found.isEmpty
  if r.has 'L' then
    if found.isEmpty then emitLines 1 [shown]
  else if r.has 'l' then
    if !found.isEmpty then emitLines 1 [shown]
  else if r.has 'c' then
    emitLines 1
      [((report.name.map (· ++ [':'])).getD []) ++ Number.decimal found.length]
  else if r.has 'o' then
    for (line, n) in found do
      for (start, length) in search.stretches line do
        if 0 < length && !r.has 'v' then
          emitLines 1 [report.line ':' n ((line.drop start).take length)]
  else
    match report.context with
    | none => emitLines 1 (found.map fun (line, n) => report.line ':' n line)
    | some (before, after) =>
      let last := (found.getLast?.map (·.2)).getD 0
      if follows && !found.isEmpty then emitLines 1 ["--".toList]
      emitLines 1 (report.withContext before after
        (lines.zipIdx.map fun (line, n) => (line, n ≤ last && isFound line)))
  return !found.isEmpty

/-- The files at a path and below it. -/
def filesBelow : Nat → Path → Eval m (List Path)
  | 0, _ => return []
  | depth + 1, p => do
    if !(← isDirectoryAt p) then return [p]
    return (← (← namesIn p).mapM fun name =>
      filesBelow depth (inDirectory p name)).flatten

/-- The files that are searched: what operands name, or what stands below
it. -/
def searchedFiles (r : OptionsRead) (operands : List Path) :
    Eval m (List Path) := do
  if !(r.has 'r' || r.has 'R') then
    return if operands.isEmpty then [['-']] else operands
  if operands.isEmpty then
    return (← (← namesIn ['.']).mapM (filesBelow depthLimit)).flatten
  return (← operands.mapM (filesBelow depthLimit)).flatten

/-- Arguments with a number behind a dash written as an option of its own. -/
def withNumber (letter : Char) (arguments : List Text) : List Text :=
  arguments.flatMap fun t =>
    match t with
    | '-' :: digits =>
        if Number.isDigits digits then [['-', letter], digits] else [t]
    | _ => [t]

/-- The expressions that options give: those after a letter, and those in
files. -/
def givenExpressions (self : Text) (r : OptionsRead) :
    Eval m (Except Unit (Option (List Text))) := do
  let mut all : List Text := []
  let mut isGiven := false
  for o in r.options do
    if o.letter = 'e' then
      isGiven := true
      all := all ++ Text.splitOn '\n' o.operand
    if o.letter = 'f' then
      isGiven := true
      match ← if o.operand = ['-'] then pure (.ok (← drain 0))
        else openFile o.operand with
      | .error e =>
        protest self (o.operand ++ ": ".toList ++ reasonText e)
        return .error ()
      | .ok stream => all := all ++ (← linesOf stream)
  return .ok (if isGiven then some all else none)

/-- The complaint about a number that an option should have. -/
def badNumber? (r : OptionsRead) : Option Text :=
  (r.options.filter fun o => "mABC".toList.contains o.letter).findSome?
    fun o =>
      if (Number.wordOfDigits? o.operand).isSome then none
      else
        some (if o.letter = 'm' then "invalid max count".toList
          else o.operand ++ ": invalid context length argument".toList)

/-- Prints the lines in which an expression is found. -/
def grepWith (extended : Bool) : Utility m := fun self arguments => do
  match (withQuestions grepOptions).read (withNumber 'C' arguments) with
  | .error fault =>
    protest self fault.message
    grepUsage
  | .ok r =>
    if ← answers self r " PATTERNS [FILE]..." then return 0
    if let some t := badNumber? r then
      protest self t
      return 2
    match ← givenExpressions self r with
    | .error _ => return 2
    | .ok given =>
    let (source, operands) := match given with
      | some sources => (some sources, r.operands)
      | none => (r.operands.head?.map (Text.splitOn '\n'), r.operands.drop 1)
    match source with
    | none => grepUsage
    | some sources =>
      match expressionsOf r extended sources with
      | .error e =>
        protest self e.message
        return 2
      | .ok expressions =>
        let search : LineSearch :=
          ⟨expressions, r.has 'i' || r.has 'y', r.has 'w', r.has 'x'⟩
        let deep := r.has 'r' || r.has 'R'
        let named := r.has 'H' || ((deep || 1 < operands.length) && !r.has 'h')
        let mut any := false
        let mut fine := true
        for operand in ← searchedFiles r operands do
          let opened ← if operand = ['-'] then pure (.ok (← drain 0))
              else openFile operand
          match opened with
          | .ok stream =>
              if ← searchStream r search named any operand stream then
                any := true
          | .error e =>
            if !r.has 's' then
              protest self (operand ++ ": ".toList ++ reasonText e)
            fine := false
        return if any && (fine || r.has 'q') then 0 else if !fine then 2 else 1

-- ======================================================== order

/-- A key by which lines are ordered: where it begins and ends, each as a
field and a character, and the letters of its own options. -/
structure SortKey where
  start : Nat × Nat
  finish : Option (Nat × Nat)
  letters : Text

/-- The number at the beginning of a part of a key, and what follows it; or
the complaint that there is none. -/
def keyNumber (what : String) (t : Text) : Except Text (Nat × Text) :=
  let digits := t.takeWhile Char.isDigit
  if digits.isEmpty then
    .error
      (what.toList ++ ": invalid count at start of ".toList ++ quotedWord t)
  else .ok (Number.ofDigits 0 digits, t.drop digits.length)

/-- The field and the character of a place of a key, and what follows it. -/
def keyPlace (key : Text) (what : String) (needsChar : Bool) (t : Text) :
    Except Text ((Nat × Nat) × Text) := do
  let fault (what : String) : Text :=
    what.toList ++ ": invalid field specification ".toList ++ quotedWord key
  let (field, rest) ← keyNumber what t
  if field = 0 then throw (fault "field number is zero")
  match rest with
  | '.' :: rest =>
    let (char, rest) ← keyNumber "invalid number after '.'" rest
    if needsChar && char = 0 then throw (fault "character offset is zero")
    return ((field, char), rest)
  | rest => return ((field, 0), rest)

/-- The letters that order lines. -/
def sortLetters : Text := "bdfgiMhnRrV".toList

/-- The key that an operand describes, or what is wrong with it. -/
def sortKey (t : Text) : Except Text SortKey := do
  let (start, rest) ← keyPlace t "invalid number at field start" true t
  let letters := rest.takeWhile sortLetters.contains
  let (finish, more, rest) ← match rest.drop letters.length with
    | ',' :: rest => do
      let (finish, rest) ← keyPlace t "invalid number after ','" false rest
      let more := rest.takeWhile sortLetters.contains
      pure (some finish, more, rest.drop more.length)
    | rest => pure (none, [], rest)
  if !rest.isEmpty then
    throw
      ("stray character in field spec: invalid field specification ".toList
        ++ quotedWord t)
  return ⟨start, finish, letters ++ more⟩

/-- The fields of a line; blanks in front belong to a field unless a
separator is given. -/
def sortFields (separator : Option Char) (line : Text) : List Text :=
  match separator with
  | some c => Text.splitOn c line
  | none =>
    let isBlank (c : Char) : Bool := c == ' ' || c == '\t'
    let step (fields : List Text) (c : Char) : List Text :=
      match fields with
      | field :: more =>
        if isBlank c && !(field.head?.map isBlank).getD true then
          [c] :: field :: more
        else (c :: field) :: more
      | [] => [[c]]
    (line.foldl step []).reverse.map List.reverse

/-- The part of a line that a key picks. -/
def SortKey.of (k : SortKey) (separator : Option Char) (line : Text) : Text :=
  let fields := sortFields separator line
  let joint := (separator.map ([·])).getD []
  let from_ := (fields.drop (k.start.1 - 1))
  let count := match k.finish with
    | some (last, _) => last + 1 - k.start.1
    | none => from_.length
  let picked := match k.finish with
    | some (_, n) =>
      if n = 0 then from_.take count
      else from_.take (count - 1) ++ (from_[count - 1]?.map (·.take n)).toList
    | none => from_
  (Text.joinWith joint picked).drop (k.start.2 - 1)

/-- The number at the beginning of a text, for an order by value. -/
def leadingNumber (t : Text) : Int × Nat :=
  let t := t.dropWhile fun c => c == ' ' || c == '\t'
  let negative := t.head? = some '-'
  let t := if negative then t.drop 1 else t
  let whole : Int := Number.ofDigits 0 (t.takeWhile Char.isDigit)
  let fraction := match t.dropWhile Char.isDigit with
    | '.' :: rest => rest.takeWhile Char.isDigit
    | _ => []
  let places := 18
  let scaled : Int := whole * Number.tenTo places +
    Number.ofDigits 0 ((fraction ++ List.replicate places '0').take places)
  (if negative then -scaled else scaled, 0)

/-- How two texts compare under letters. -/
def compareUnder (letters : Text) (a b : Text) : Ordering :=
  let trim (t : Text) : Text :=
    if letters.contains 'b' then t.dropWhile (fun c => c == ' ' || c == '\t')
    else t
  let fold (t : Text) : Text :=
    if letters.contains 'f' then Text.upper t else t
  let keep (c : Char) : Bool := c.isAlphanum || c == ' ' || c == '\t'
  let pick (t : Text) : Text :=
    if letters.contains 'd' then t.filter keep else t
  let result :=
    if letters.contains 'n' || letters.contains 'g'
        || letters.contains 'h' then
      compare (leadingNumber a).1 (leadingNumber b).1
    else compare (pick (fold (trim a))) (pick (fold (trim b)))
  if letters.contains 'r' then result.swap else result

/-- Lines without those that repeat the line before them in an order. -/
def withoutRepeats (same : Text → Text → Bool) : List Text → List Text
  | a :: b :: rest =>
    if same a b then withoutRepeats same (a :: rest)
    else a :: withoutRepeats same (b :: rest)
  | lines => lines
termination_by lines => lines.length

/-- Prints lines in order. -/
def sort : Utility m :=
  withOptions (OptionTable.of "bdfgiMhnRrVck:o:st:uzCmS:T:"
    [("ignore-leading-blanks", 'b'), ("dictionary-order", 'd'),
     ("ignore-case", 'f'), ("general-numeric-sort", 'g'),
     ("numeric-sort", 'n'), ("reverse", 'r'), ("check", 'c'),
     ("key", 'k'), ("output", 'o'), ("stable", 's'), ("field-separator", 't'),
     ("unique", 'u')]) 2 fun self r => do
  let letters := (r.options.map (·.letter)).filter sortLetters.contains
  let separator := (r.operand? 't').bind List.head?
  let given :=
    r.options.filterMap fun o => if o.letter = 'k' then some o.operand
      else none
  match given.mapM sortKey with
  | .error e =>
    protest self e
    return 2
  | .ok keys =>
    match (r.lastOf? "cC".toList), r.operands with
    | some c, _ :: extra :: _ =>
      protest self
        ("extra operand ".toList ++ quotedPath extra
          ++ " not allowed with -".toList ++
        [c])
      return 2
    | _, _ => pure ()
    let refused :=
      if r.has 'c' || r.has 'C' then "open failed: " else "cannot read: "
    let wording : Wording := ⟨fun p => refused.toList ++ shownPath p,
      fun p => "read failed: ".toList ++ shownPath p⟩
    let mut streams : List (Text × Stream) := []
    for operand in if r.operands.isEmpty then [['-']] else r.operands do
      let (read, fine) ← streamsOf self wording [operand]
      if !fine then return 2
      streams := streams ++ read
    let mut lines : List Text := []
    for (_, s) in streams do lines := lines ++ (← linesOf s)
    let byKeys (a b : Text) : Ordering :=
      if keys.isEmpty then compareUnder letters a b
      else keys.foldl (fun result k =>
        let own := if k.letters.isEmpty then letters else k.letters
        result.then (compareUnder own (k.of separator a) (k.of separator b)))
          .eq
    let byLine (a b : Text) : Ordering :=
      if letters.contains 'r' then compare b a else compare a b
    let order (a b : Text) : Ordering :=
      if r.has 's' || r.has 'u' then byKeys a b
      else (byKeys a b).then (byLine a b)
    if r.has 'c' || r.has 'C' then
      let name := (r.operands.head?).getD ['-']
      let pairs := (lines.zip (lines.drop 1)).zipIdx
      match pairs.find? fun ((a, b), _) =>
        order a b == .gt || (r.has 'u' && byKeys a b == .eq) with
      | some ((_, b), n) =>
        if !r.has 'C' then
          protest self
            (name ++ ':' :: Number.decimal (n + 2)
              ++ ": disorder: ".toList ++ b)
        return 1
      | none => return 0
    let sorted := lines.mergeSort fun a b => (order a b).isLE
    let sorted :=
      if r.has 'u' then withoutRepeats (fun a b => byKeys a b == .eq) sorted
      else sorted
    match r.operand? 'o' with
    | some p =>
      if let .error e ← writeFile p false (.ofText (Text.unlines sorted)) then
        protest self
          ("open failed: ".toList ++ shownPath p ++ ": ".toList
            ++ reasonText e)
        return 2
    | none => emitLines 1 sorted
    return 0

/-- Stretches of lines that are the same, with their lengths. -/
def stretchesOf (same : Text → Text → Bool) (lines : List Text) :
    List (Text × Nat) :=
  (lines.foldl (fun found line =>
    match found with
    | (first, n) :: more => if same first line then (first, n + 1) :: more
      else (line, 1) :: (first, n) :: more
    | [] => [(line, 1)]) []).reverse

/-- Prints lines without those that repeat the line before them. A number
behind a dash is one of fields. -/
def uniq : Utility m := fun self arguments =>
  withOptions
    (OptionTable.of "cdDf:is:uw:z"
      [("count", 'c'), ("repeated", 'd'), ("skip-fields", 'f'),
        ("ignore-case", 'i'), ("skip-chars", 's'), ("unique", 'u'),
    ("check-chars", 'w')]) 1 (fun self r => do
  match r.operands with
  | _ :: _ :: extra :: _ =>
      misused self 1 ("extra operand ".toList ++ quotedWord extra)
  | operands =>
    let (stream, fine) ← gather self .bare (operands.take 1)
    if !fine then return 1
    let amount (c : Char) : Nat := ((r.operand? c).bind sizeOf?).getD 0
    let isBlank (c : Char) : Bool := c == ' ' || c == '\t'
    let skipField (t : Text) : Text :=
      (t.dropWhile isBlank).dropWhile (!isBlank ·)
    let key (t : Text) : Text :=
      let t := ((amount 'f').repeat skipField t).drop (amount 's')
      let t := if (r.operand? 'w').isSome then t.take (amount 'w') else t
      if r.has 'i' then Text.lower t else t
    let found := stretchesOf (fun a b => key a == key b) (← linesOf stream)
    let kept :=
      found.filter fun (_, n) => (!r.has 'd' || 1 < n) && (!r.has 'u' || n = 1)
    let out := Text.unlines (kept.map fun (line, n) =>
      if r.has 'c' then counted 7 n ++ ' ' :: line else line)
    match operands.drop 1 with
    | p :: _ => let _ ← writeFile p false (.ofText out)
    | [] => emitText 1 out
    return 0) self (withNumber 'f' arguments)

-- ======================================================== numbers

/-- A decimal numeral as an integer and the number of its places. -/
def scaledDecimal? (t : Text) : Option (Int × Nat) :=
  let digits := Number.unsigned t
  if Number.isMantissa digits then
    let (n, places) := Number.mantissaValue digits
    some (if t.head? = some '-' then -(n : Int) else n, places)
  else none

/-- Prints the numbers from one to another. -/
def seq : Utility m := fun self arguments =>
  let isNegative (t : Text) : Bool :=
    t.head? = some '-' && ((t.drop 1).head?.map fun c =>
    c.isDigit || c == '.').getD false
  let isOption (n : Nat) (t : Text) : Bool :=
    (t.head? = some '-' && t != ['-', '-'] && !isNegative t) ||
    [['-', 's'], ['-', 'f']].contains (arguments.getD (n - 1) []) && 0 < n
  let options :=
    (arguments.zipIdx.takeWhile fun (t, n) => isOption n t).map (·.1)
  let operands := arguments.drop options.length
  let arguments := if (operands.head?.map isNegative).getD false then
      options ++ ['-', '-'] :: operands
    else arguments
  withOptions
    { OptionTable.of "f:s:w" [("equal-width", 'w'), ("separator", 's'),
    ("format", 'f')] with mixes := false } 1 (fun self r => do
    match r.operands, r.operands.find? fun t => (scaledDecimal? t).isNone with
    | [], _ => misused self 1 "missing operand".toList
    | _ :: _ :: _ :: extra :: _, _ =>
        misused self 1 ("extra operand ".toList ++ quotedWord extra)
    | _, some t =>
        misused self 1
          ("invalid floating point argument: ".toList ++ quotedWord t)
    | operands, none =>
      let numbers := operands.filterMap scaledDecimal?
      let (first, step, last) := match numbers with
        | [last] => ((1, 0), (1, 0), last)
        | [first, last] => (first, (1, 0), last)
        | first :: step :: last :: _ => (first, step, last)
        | [] => ((1, 0), (1, 0), (0, 0))
      let places := max first.2 step.2
      let all := max places last.2
      let scale (x : Int × Nat) : Int := x.1 * Number.tenTo (all - x.2)
      if step.1 = 0 then
        return ← misused self 1 ("invalid Zero increment value: ".toList ++
          quotedWord (operands.getD 1 []))
      let count := (Int.fdiv (scale last - scale first) (scale step) + 1).toNat
      let values :=
        (List.range count).map fun n : Nat => scale first + scale step
          * (n : Int)
      let shown (n : Int) : Text :=
        let t := fixedPoint places n.natAbs (Number.tenTo all)
        if n < 0 then '-' :: t else t
      let texts := values.map shown
      let width := (texts.map List.length).foldl max 0
      let padded (t : Text) : Text :=
        if r.has 'w' then
          let sign := t.takeWhile (· == '-')
          sign ++ List.replicate (width - t.length) '0' ++ t.drop sign.length
        else t
      let separator := (r.operand? 's').getD ['\n']
      if !texts.isEmpty then
        emitText 1 (Text.joinWith separator (texts.map padded) ++ ['\n'])
      return 0) self arguments

-- ======================================================== parts of lines

/-- A stretch of positions, counted from one; without an end it goes on. -/
abbrev Stretch := Nat × Option Nat

/-- The stretches that a list describes, or what is wrong with it. -/
def stretchList (what numbering : String) (t : Text) :
    Except Text (List Stretch) :=
  (Text.splitOn ',' t).mapM fun part => do
    let number (digits : Text) : Except Text Nat :=
      if Number.isDigits digits then
        let n := Number.ofDigits 0 digits
        if n = 0 then
          .error (numbering.toList ++ " are numbered from 1".toList) else .ok n
      else .error ("invalid ".toList ++ what.toList ++ ' ' :: quotedWord part)
    match Text.cutAtFirst? '-' part with
    | none => do
      let n ← number part
      return (n, some n)
    | some ([], []) => throw "invalid range with no endpoint: -".toList
    | some ([], last) => return (1, some (← number last))
    | some (first, []) => return (← number first, none)
    | some (first, last) => do
      let (a, b) := (← number first, ← number last)
      if b < a then throw "invalid decreasing range".toList
      return (a, some b)

/-- Is the position in one of the stretches? -/
def inStretches (stretches : List Stretch) (n : Nat) : Bool :=
  stretches.any fun (first, last) => decide (first ≤ n)
    && (last.map (decide <| n ≤ ·)).getD true

/-- Prints parts of lines. -/
def cut : Utility m :=
  withOptions
    { OptionTable.of "b:c:d:f:nsz"
      [("bytes", 'b'), ("characters", 'c'), ("delimiter", 'd'),
        ("fields", 'f'), ("only-delimited", 's'), ("complement", 'C'),
    ("output-delimiter", 'O')] with silent := "CO:".toList } 1 fun self r => do
  let byFields := r.has 'f'
  match (r.operand? 'f' <|> r.operand? 'c' <|> r.operand? 'b') with
  | none =>
      misused self 1
        "you must specify a list of bytes, characters, or fields".toList
  | some t =>
    let what := if byFields then "field value" else "byte/character position"
    let numbering := if byFields then "fields" else "byte/character positions"
    let lists := r.options.filter fun o => "bcf".toList.contains o.letter
    if lists.length != 1 then
      return ← misused self 1 "only one list may be specified".toList
    if r.has 'd' && !byFields then
      return ← misused self 1
        "an input delimiter may be specified only when operating on fields".toList
    if r.has 's' && !byFields then
      return ← misused self 1
        ("suppressing non-delimited lines makes sense\n\tonly when " ++
        "operating on fields").toList
    let delimiter := (r.operand? 'd').getD ['\t']
    if 1 < delimiter.length then
      return ← misused self 1 "the delimiter must be a single character".toList
    match stretchList what numbering t with
    | .error e => misused self 1 e
    | .ok stretches =>
      let (stream, fine) ← gather self .bare r.operands
      let picks (n : Nat) : Bool := inStretches stretches n != r.has 'C'
      let lines ← linesOf stream
      if byFields then
        let c := delimiter.headD '\x00'
        let joint := (r.operand? 'O').getD [c]
        emitLines 1 (lines.filterMap fun line =>
          if !line.contains c then if r.has 's' then none else some line
          else
            let fields :=
              (Text.splitOn c line).zipIdx.filter fun (_, n) => picks (n + 1)
            some (Text.joinWith joint (fields.map (·.1))))
      else
        let rows := byteLines stream.bytes.toList
        emit 1 (bytesOf (rows.flatMap fun row =>
          let body := row.filter (· != 10)
          ((body.zipIdx.filter fun (_, n) => picks (n + 1)).map (·.1))
            ++ [10]))
      return okStatus fine

/-- The lists of texts with the n-th ones side by side; a text that is
missing is empty. -/
def sideBySide (columns : List (List Text)) : List (List Text) :=
  let most := (columns.map List.length).foldl max 0
  (List.range most).map fun n => columns.map fun column => column.getD n []

/-- Texts joined by delimiters in turn. -/
def joinInTurn (delimiters : List Text) (texts : List Text) : Text :=
  (texts.zipIdx.map fun (t, n) =>
    if n = 0 then t
    else (delimiters.getD ((n - 1) % max 1 delimiters.length) []) ++ t).flatten

/-- The delimiters of a list. -/
def delimiterList : Text → List Text
  | '\\' :: 'n' :: t => ['\n'] :: delimiterList t
  | '\\' :: 't' :: t => ['\t'] :: delimiterList t
  | '\\' :: '0' :: t => [] :: delimiterList t
  | '\\' :: '\\' :: t => ['\\'] :: delimiterList t
  | c :: t => [c] :: delimiterList t
  | [] => []

/-- Prints lines of several streams side by side. -/
def paste : Utility m :=
  withOptions (OptionTable.of "d:sz" [("delimiters", 'd'), ("serial", 's')]) 1
    fun self r => do
  let delimiters := delimiterList ((r.operand? 'd').getD ['\t'])
  let (streams, fine) ← streamsOf self .bare r.operands
  let mut columns : List (List Text) := []
  for (_, s) in streams do columns := columns ++ [← linesOf s]
  let rows := if r.has 's' then columns else sideBySide columns
  emitLines 1 (rows.map (joinInTurn delimiters))
  return okStatus fine

/-- A text in pieces of a width; at blanks, if these are looked for. The
budget bounds the number of pieces. -/
def folded (width : Nat) (atBlanks : Bool) : Nat → Text → List Text
  | 0, t => [t]
  | budget + 1, t =>
    if t.length ≤ width then [t]
    else
      let piece := t.take width
      let kept :=
        (piece.reverse.dropWhile fun c => c != ' ' && c != '\t').reverse
      let piece := if atBlanks && !kept.isEmpty then kept else piece
      piece :: folded width atBlanks budget (t.drop piece.length)

/-- Prints lines in pieces of a width. -/
def fold : Utility m :=
  withOptions
    (OptionTable.of "bsw:" [("bytes", 'b'), ("spaces", 's'), ("width", 'w')]) 1
  fun self r => do
  let t := (r.operand? 'w').getD "80".toList
  match Number.wordOfDigits? t with
  | none =>
    protest self ("invalid number of columns: ".toList ++ quotedWord t)
    return 1
  | some width =>
    let (stream, fine) ← gather self .bare r.operands
    if stream.isEndless then throw .unfinished
    let pieces := Text.pieces (Stream.decode stream.bytes)
    emitText 1 (pieces.flatMap fun piece =>
      let ends := piece.getLast? = some '\n'
      let body := if ends then List.dropLast piece else piece
      Text.joinWith ['\n']
        (folded (max width 1) (r.has 's') body.length body) ++
        if ends then ['\n'] else [])
    return okStatus fine

/-- Prints lines with numbers in front. -/
def nl : Utility m :=
  withOptions (OptionTable.of "b:d:f:h:i:l:n:ps:v:w:" [("body-numbering", 'b'),
    ("line-increment", 'i'), ("number-format", 'n'), ("number-separator", 's'),
    ("starting-line-number", 'v'), ("number-width", 'w')]) 1 fun self r => do
  let (stream, fine) ← gather self .bare r.operands
  let style := (r.operand? 'b').getD ['t']
  let number (c : Char) (standard : Nat) : Nat :=
    ((r.operand? c).bind sizeOf?).getD standard
  let separator := (r.operand? 's').getD ['\t']
  let width := number 'w' 6
  let shown (n : Nat) : Text := match (r.operand? 'n').map String.ofList with
    | some "ln" =>
      let digits := Number.decimal n
      digits ++ List.replicate (width - digits.length) ' '
    | some "rz" => Number.decimalPadded width n
    | _ => counted width n
  let lines ← linesOf stream
  let (out, _) := lines.foldl (fun (out, n) line =>
    if style = ['a'] || (style = ['t'] && !line.isEmpty) then
      ((shown n ++ separator ++ line) :: out, n + number 'i' 1)
    else ((List.replicate (width + separator.length) ' ' ++ line) :: out, n))
    (([], number 'v' 1) : List Text × Nat)
  emitLines 1 out.reverse
  return okStatus fine

end Utilities

end GridScript.Shell
