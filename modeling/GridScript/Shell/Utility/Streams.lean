/-
Programs that print streams as they are, in part, or byte by byte
otherwise.
-/
import GridScript.Shell.Expansion
import GridScript.Shell.Format
import GridScript.Shell.Utility.Basic

namespace GridScript.Shell

section Utilities

variable {m : Type → Type} [Monad m] [FileTree m]

-- ======================================================== cat

/-- How `cat` shows a byte that is no line end. -/
def shownByte (r : OptionsRead) (b : UInt8) : List UInt8 :=
  let visible := r.has 'v' || r.has 'A' || r.has 'e' || r.has 't'
  let tabs := r.has 'T' || r.has 'A' || r.has 't'
  let low (b : UInt8) : List UInt8 :=
    if b < 32 then [94, b + 64] else if b = 127 then [94, 63] else [b]
  if b = 9 then if tabs then [94, 73] else [9]
  else if !visible then [b]
  else if b < 128 then low b
  else [77, 45] ++ low (b - 128)

/-- A line as `cat` shows it: its bytes, its number, whether it ends. -/
def shownLine (r : OptionsRead) (number : Nat) (line : List UInt8) :
    List UInt8 :=
  let ends := line.getLast? = some 10
  let body := if ends then line.dropLast else line
  let isBlank := body.isEmpty && ends
  let numbered := if r.has 'b' then !isBlank else r.has 'n'
  let digits := Number.decimal number
  let front := if numbered then
      Text.toBytes (List.replicate (6 - digits.length) ' ' ++ digits ++ ['\t'])
        else []
  let marks := r.has 'E' || r.has 'A' || r.has 'e'
  front ++ body.flatMap (shownByte r)
    ++ (if ends then (if marks then [36, 10] else [10]) else [])

/-- The lines of some bytes, with their ends. -/
def byteLines (bytes : List UInt8) : List (List UInt8) :=
  let (lines, last) := bytes.foldr (fun b (lines, current) =>
    if b = 10 then
      ((if current.isEmpty then lines else current :: lines), [10])
    else (lines, b :: current)) (([], []) : List (List UInt8) × List UInt8)
  if last.isEmpty then lines else last :: lines

/-- The lines with each stretch of blank ones made one. -/
def squeezedLines : List (List UInt8) → List (List UInt8)
  | [10] :: [10] :: rest => squeezedLines ([10] :: rest)
  | line :: rest => line :: squeezedLines rest
  | [] => []

/-- Prints streams. -/
def cat : Utility m :=
  withOptions (OptionTable.of "AbeEnstTuv"
    [("show-all", 'A'), ("number-nonblank", 'b'), ("show-ends", 'E'),
     ("number", 'n'), ("squeeze-blank", 's'), ("show-tabs", 'T'),
     ("show-nonprinting", 'v')]) 1
  fun self r => do
    let channels := (← get).channels
    if (channels.lookup 1).isNone then
      protest self "standard output: Bad file descriptor".toList
      return 1
    if r.operands.all (· == ['-']) && (channels.lookup 0).isNone then
      protest self "-: Bad file descriptor".toList
      protest self "closing standard input: Bad file descriptor".toList
      return 1
    let (stream, fine) ← gather self .bare r.operands
    if (r.lastOf? "AbeEnstTv".toList).isNone || stream.isEndless then
      emit 1 stream
    else
      let lines := byteLines stream.bytes.toList
      let lines := if r.has 's' then squeezedLines lines else lines
      let (out, _) := lines.foldl (fun (out, n) line =>
        let counts := r.has 'n' && !r.has 'b' || line != [10]
        ((shownLine r n line) :: out, if counts then n + 1 else n))
        (([], 1) : List (List UInt8) × Nat)
      emit 1 (bytesOf out.reverse.flatten)
    return okStatus fine

-- ======================================================== beginnings and ends

/-- The first lines of bytes. -/
def firstLines : Nat → List UInt8 → List UInt8
  | 0, _ => []
  | _, [] => []
  | n + 1, b :: bs => b :: firstLines (if b = 10 then n else n + 1) bs

/-- Arguments with a count behind the first dash written as an option. -/
def withCount (arguments : List Text) : List Text :=
  match arguments with
  | ('-' :: c :: cs) :: rest =>
    let digits := (c :: cs).takeWhile Char.isDigit
    match (c :: cs).dropWhile Char.isDigit, digits.isEmpty with
    | [], false => ['-', 'n'] :: digits :: rest
    | ['c'], false => ['-', 'c'] :: digits :: rest
    | _, _ => arguments
  | _ => arguments

/-- The streams under their names, if there are several. -/
def emitNamed (r : OptionsRead) (streams : List (Text × Stream)) :
    Eval m Unit := do
  let named := (1 < r.operands.length || r.has 'v') && !r.has 'q'
  for ((name, stream), n) in streams.zipIdx do
    if named then
      let title := if name = ['-'] then "standard input".toList else name
      emitText 1
        ((if n = 0 then [] else ['\n']) ++ "==> ".toList ++ title
          ++ " <==\n".toList)
    emit 1 stream

/-- What is asked for of the beginning or end of streams: bytes or lines, a
sign, and how many; or what is wrong with that. -/
def readAmount (r : OptionsRead) : Except Text (Bool × Option Char × Nat) :=
  let bytes := r.lastOf? "cn".toList = some 'c'
  let t := (r.operand? (if bytes then 'c' else 'n')).getD "10".toList
  let sign := t.head?.filter fun c => c == '-' || c == '+'
  let wrong :=
    "invalid number of ".toList
      ++ (if bytes then "bytes" else "lines").toList ++
    ": ".toList ++ quotedWord (if sign = some '-' then t.drop 1 else t)
  match sizeOf? (if sign.isSome then t.drop 1 else t) with
  | some n =>
    if Number.wordBound ≤ n then
      .error (wrong ++ ": Value too large for defined data type".toList)
    else .ok (bytes, sign, n)
  | none => .error wrong

/-- The beginning of a stream. -/
def beginning (bytes fromEnd : Bool) (n : Nat) (s : Stream) : Stream :=
  if fromEnd then
    if bytes then .ofBytes (s.bytes.extract 0 (s.bytes.size - n))
    else
      let lines := byteLines s.bytes.toList
      bytesOf (lines.take (lines.length - n)).flatten
  else if bytes then .ofBytes (s.take n)
  else
    let enough :=
      if s.isEndless then s.bytes.size + n * s.cycle.size else s.bytes.size
    bytesOf (firstLines n (s.take enough).toList)

/-- The end of a stream, counted from its own end or from its start. -/
def ending (bytes fromStart : Bool) (n : Nat) (s : Stream) : Stream :=
  if bytes then
    let size := s.bytes.size
    .ofBytes (s.bytes.extract (if fromStart then n - 1 else size - n) size)
  else
    let lines := byteLines s.bytes.toList
    bytesOf
      (lines.drop (if fromStart then n - 1 else lines.length - n)).flatten

/-- The words of the options of `head` and `tail`. -/
def amountWords : List (String × Char) :=
  [("bytes", 'c'), ("lines", 'n'), ("quiet", 'q'), ("silent", 'q'),
    ("verbose", 'v')]

/-- Prints the beginning of streams. -/
def head : Utility m := fun self arguments =>
  withOptions (OptionTable.of "c:n:qvz" amountWords) 1 (fun self r => do
    match readAmount r with
    | .error what =>
      protest self what
      return 1
    | .ok (bytes, sign, n) =>
      let (streams, fine) ← streamsOf self .full r.operands
      if sign = some '-' && streams.any (·.2.isEndless) then throw .unfinished
      emitNamed r
        (streams.map fun (name, s) =>
          (name, beginning bytes (sign = some '-') n s))
      return okStatus fine) self (withCount arguments)

/-- Prints the end of streams. -/
def tail : Utility m := fun self arguments =>
  let arguments := match arguments with
    | ('+' :: n) :: rest =>
      if Number.isDigits n then ['-', 'n'] :: ('+' :: n) :: rest else arguments
    | _ => withCount arguments
  withOptions (OptionTable.of "c:n:qvzfF" (amountWords ++ [("follow", 'f')])) 1
    (fun self r => do
    match readAmount r with
    | .error what =>
      protest self what
      return 1
    | .ok (bytes, sign, n) =>
      let (streams, fine) ← streamsOf self .full r.operands
      if streams.any (·.2.isEndless) then throw .unfinished
      emitNamed r
        (streams.map fun (name, s) =>
          (name, ending bytes (sign = some '+') n s))
      if (r.has 'f' || r.has 'F') && !r.operands.isEmpty then throw .unfinished
      return okStatus fine) self arguments

-- ======================================================== copies

/-- Prints what it is given, and writes it to files as well. -/
def tee : Utility m :=
  withOptions
    (OptionTable.of "aip" [("append", 'a'), ("ignore-interrupts", 'i')]) 1
  fun self r => do
    let stream ← drain 0
    if stream.isEndless then throw .unfinished
    let mut fine := true
    for operand in r.operands do
      if let .error e ← writeFile operand (r.has 'a') stream then
        protest self (shownPath operand ++ ": ".toList ++ reasonText e)
        fine := false
    emit 1 stream
    return okStatus fine

/-- Prints a line over and over. -/
def yes : Utility m :=
  withOptions (OptionTable.of "" []) 1 fun _ r => do
    let line :=
      if r.operands.isEmpty then ['y'] else Text.joinWith [' '] r.operands
    emit 1 ⟨.empty, Stream.encode (line ++ ['\n'])⟩
    return 0

/-- Prints streams with their lines in reverse. -/
def tac : Utility m :=
  withOptions (OptionTable.of "brs:" [("before", 'b'), ("regex", 'r')]) 1
    fun self r => do
    let wording : Wording :=
      ⟨fun p => "failed to open ".toList ++ quotedPath p ++
      " for reading".toList, fun p => p ++ ": read error".toList⟩
    let (streams, fine) ← streamsOf self wording r.operands
    if streams.any (·.2.isEndless) then throw .unfinished
    for (_, s) in streams do
      emit 1 (bytesOf (byteLines s.bytes.toList).reverse.flatten)
    return okStatus fine

/-- Prints lines with their characters in reverse. -/
def rev : Utility m :=
  withOptions (OptionTable.of "0hV" []) 1 fun self r => do
    let wording : Wording :=
      ⟨fun p => "cannot open ".toList ++ p, fun p => p⟩
    let (stream, fine) ← gather self wording r.operands
    if stream.isEndless then throw .unfinished
    let pieces := Text.pieces (Stream.decode stream.bytes)
    emitText 1 (pieces.flatMap fun piece =>
      if piece.getLast? = some '\n' then
        (List.dropLast piece).reverse ++ ['\n'] else piece.reverse)
    return okStatus fine

-- ======================================================== counts

/-- The number with blanks in front. -/
def counted (width n : Nat) : Text :=
  let digits := Number.decimal n
  List.replicate (width - digits.length) ' ' ++ digits

/-- How many words there are in bytes. What cannot be shown is neither a
blank nor the beginning of a word. -/
def countWords (bytes : List UInt8) : Nat :=
  let isBlank (b : UInt8) : Bool := b == 32 || (9 ≤ b && b ≤ 13)
  (bytes.foldl (fun ((n, inside) : Nat × Bool) b =>
    if isBlank b then (n, false)
    else if 32 < b && b < 127 then (if inside then n else n + 1, true)
    else (n, inside)) (0, false)).1

/-- How wide the widest line of bytes is. -/
def widestLine (bytes : List UInt8) : Nat :=
  (bytes.foldl (fun ((widest, width) : Nat × Nat) b =>
    let next := if b = 9 then (width / 8 + 1) * 8
      else if 32 ≤ b && b < 127 then width + 1
      else if b = 10 || b = 12 || b = 13 then 0
      else width
    (max widest next, next)) (0, 0)).1

/-- How many lines, words, characters and bytes there are, and how wide the
lines are. -/
def countsOf (bytes : List UInt8) : List Nat :=
  [bytes.count 10, countWords bytes, bytes.length, bytes.length,
    widestLine bytes]

/-- The streams of files by their names; directories count as empty ones,
which are told of. -/
def streamsOrDirectories (self : Text) (operands : List Text) :
    Eval m (List (Text × Stream) × Bool) := do
  let mut all : List (Text × Stream) := []
  let mut fine := true
  for operand in operands do
    let (streams, isRead) ← streamsOf self .bare [operand]
    all := all ++ streams
    if !isRead then
      fine := false
      if let .ok .directory ← entryAt operand then
        all := all ++ [(operand, .empty)]
  if operands.isEmpty then streamsOf self .bare [] else return (all, fine)

/-- Counts lines, words and bytes. -/
def wc : Utility m :=
  withOptions
    (OptionTable.of "clLmw" [("bytes", 'c'), ("chars", 'm'), ("lines", 'l'),
    ("words", 'w'), ("max-line-length", 'L')]) 1 fun self r => do
  let letters := "lwmcL".toList
  let asked :=
    if (r.lastOf? letters).isNone then "lwc".toList else letters.filter r.has
  let (streams, fine) ← streamsOrDirectories self r.operands
  if streams.any (·.2.isEndless) then throw .unfinished
  let rows := streams.map fun (name, s) => (name, countsOf s.bytes.toList)
  let total :=
    rows.foldl (fun sums (_, counts) => sums.zipWith (· + ·) counts)
      [0, 0, 0, 0, 0]
  let size := total.getD 3 0
  let hasDirectory ← r.operands.anyM fun p =>
      do return (← entryAt p).toOption == some .directory
  let width := if asked.length = 1 && r.operands.length ≤ 1 then 1
    else if r.operands.isEmpty || r.operands.contains ['-']
        || hasDirectory then 7
    else (Number.decimal size).length
  let row (counts : List Nat) (name : Text) : Text :=
    let shown := (letters.zip counts).filter fun (c, _) => asked.contains c
    Text.joinWith [' '] (shown.map fun (_, n) => counted width n) ++ name
  let isGiven := r.operands.isEmpty
  emitLines 1
    (rows.map fun (name, counts) =>
      row counts (if isGiven then [] else ' ' :: name))
  if 1 < r.operands.length then emitLines 1 [row total " total".toList]
  return okStatus fine

end Utilities

end GridScript.Shell
