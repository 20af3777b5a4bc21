/-
The program that exchanges bytes of one set for those of another, deletes
them, or makes stretches of the same one short. A set is written as bytes,
ranges of them, named classes, and bytes that are repeated as often as it
takes.
-/
import GridScript.Shell.Expansion
import GridScript.Shell.Format
import GridScript.Shell.Utility.Basic

namespace GridScript.Shell

-- ======================================================== reading sets

/-- A byte as a set is written, and whether a backslash stands before it. -/
structure SetByte where
  byte : UInt8
  escaped : Bool
  deriving DecidableEq

namespace SetByte

/-- Is it the character itself, without a backslash? -/
def isPlain (b : SetByte) (c : Char) : Bool :=
  !b.escaped && byteChar b.byte == c

/-- The bytes of a set, its escapes replaced. The budget bounds their
number. -/
def readAll : Nat → List UInt8 → List SetByte
  | 0, _ => []
  | _, [] => []
  | budget + 1, b :: bs =>
    if b != 92 then ⟨b, false⟩ :: readAll budget bs
    else
      let digits := (bs.takeWhile fun d => 48 ≤ d && d ≤ 55).take 3
      let value (ds : List UInt8) : Nat :=
        ds.foldl (fun n d => 8 * n + (d.toNat - 48)) 0
      let digits := if 255 < value digits then digits.take 2 else digits
      match bs with
      | [] => [⟨92, false⟩]
      | c :: rest =>
        if !digits.isEmpty then
          ⟨UInt8.ofNat (value digits), true⟩
            :: readAll budget (bs.drop digits.length)
        else
          match "abtnvfr".toList.idxOf? (byteChar c) with
          | some n => ⟨UInt8.ofNat (7 + n), true⟩ :: readAll budget rest
          | none => ⟨c, true⟩ :: readAll budget rest

/-- Does a backslash at the end stand before nothing? -/
def endsEscaped (bs : List UInt8) : Bool :=
  (bs.reverse.takeWhile (· == 92)).length % 2 == 1

/-- The bytes up to a delimiter with a bracket behind it, and what follows
that. -/
def before? (delimiter : Char) :
    List SetByte → Option (List SetByte × List SetByte)
  | a :: b :: rest =>
    if a.isPlain delimiter && b.isPlain ']' then some ([], rest)
    else
      (before? delimiter (b :: rest)).map fun (inside, after) =>
        (a :: inside, after)
  | _ => none

/-- The text of bytes. -/
def text (bs : List SetByte) : Text := bs.map (byteChar ·.byte)

end SetByte

/-- A part of a set. -/
inductive SetPart where
  | range (first last : UInt8)
  | named (name : Text)
  /-- The bytes that count as the same as one. -/
  | alike (b : UInt8)
  /-- A byte so many times; without a count, as often as it takes. -/
  | repeated (b : UInt8) (count : Option Nat)
  deriving DecidableEq

namespace SetPart

/-- The classes that have a name. -/
def classNames : List String :=
  ["alnum", "alpha", "blank", "cntrl", "digit", "graph", "lower", "print",
    "punct", "space", "upper", "xdigit"]

/-- A byte that is repeated, behind the bracket that opens it, and what
follows the one that closes it. -/
def repetition? : List SetByte → Option (Except Text (SetPart × List SetByte))
  | b :: star :: rest =>
    let digits := rest.takeWhile fun d => !d.escaped && byteChar d.byte != ']'
    match star.isPlain '*', rest.drop digits.length with
    | true, close :: after =>
      let t := SetByte.text digits
      let base := if t.head? = some '0' then 8 else 10
      let isDigit (c : Char) : Bool :=
        decide ('0' ≤ c) && decide (c.toNat < 48 + base)
      let count := t.foldl (fun n c => base * n + Number.digitValue c) 0
      if !close.isPlain ']' then none
      else if t.all isDigit && count ≤ 9223372036854775807 then
        some
          (.ok
            (.repeated b.byte (if count = 0 then none else some count), after))
      else
        some (.error ("invalid repeat count ".toList ++ quotedWord t ++
          " in [c*n] construct".toList))
    | _, _ => none
  | _ => none

/-- Is what follows a count behind a star, and a bracket? -/
def isCounted (bs : List SetByte) : Bool :=
  match bs with
  | star :: rest =>
    star.isPlain '*'
      && ((rest.dropWhile fun d => (byteChar d.byte).isDigit).head?.map
      (·.isPlain ']')).getD false
  | [] => false

/-- What stands between a bracket and the one that closes it. -/
def bracketed? (bs : List SetByte) :
    Option (Except Text (SetPart × List SetByte)) :=
  match bs with
  | d :: rest =>
    let isClass := d.isPlain ':'
    let inside :=
      if isClass || d.isPlain '=' then SetByte.before? (byteChar d.byte) rest
      else none
    match inside with
    | none => repetition? bs
    | some (inside, after) =>
      let name := SetByte.text inside
      if inside.isEmpty then
        some (.error ((if isClass then "missing character class name '[::]'"
          else "missing equivalence class character '[==]'").toList))
      else if isClass && classNames.contains (String.ofList name) then
        some (.ok (.named name, after))
      else
        match isClass, inside with
        | false, [b] => some (.ok (.alike b.byte, after))
        | _, _ =>
          if isCounted rest then repetition? bs
          else
            some
              (.error
                (if isClass then "invalid character class ".toList
                  ++ quotedWord name
              else
                name
                  ++ ": equivalence class operand must be a single character".toList))
  | [] => none

/-- How a complaint shows an end of a range. -/
def shownEnd (b : UInt8) : Text :=
  if isPrintable b then [byteChar b] else '\\' :: byteEscape.octal b

/-- The parts of a set. The budget bounds their number. -/
def readAll : Nat → List SetByte → Except Text (List SetPart)
  | 0, _ => .ok []
  | _, [] => .ok []
  | budget + 1, a :: rest => do
    let opens := a.isPlain '[' && 2 ≤ rest.length
    match if opens then bracketed? rest else none with
    | some read =>
      let (part, after) ← read
      return part :: (← readAll budget after)
    | none =>
      match rest with
      | dash :: b :: after =>
        if !dash.isPlain '-' then
          return .range a.byte a.byte :: (← readAll budget rest)
        if b.byte < a.byte then
          throw
            ("range-endpoints of '".toList ++ shownEnd a.byte
              ++ '-' :: shownEnd b.byte ++
            "' are in reverse collating sequence order".toList)
        return .range a.byte b.byte :: (← readAll budget after)
      | rest => return .range a.byte a.byte :: (← readAll budget rest)

/-- The parts of a set that is written out. -/
def read (t : Text) : Except Text (List SetPart) :=
  let bytes := Text.toBytes t
  readAll (bytes.length + 1) (SetByte.readAll (bytes.length + 1) bytes)

-- ======================================================== sets as bytes

/-- All bytes. -/
def everyByte : List UInt8 := (List.range 256).map UInt8.ofNat

/-- The bytes of a part. What is repeated as often as it takes has a number
of them. -/
def bytes (filling : Nat) (part : SetPart) : List UInt8 :=
  match part with
  | range first last => everyByte.filter fun b => first ≤ b && b ≤ last
  | named name =>
      everyByte.filter fun b => b < 128 && inClass name (byteChar b)
  | alike b => [b]
  | repeated b count => List.replicate (count.getD filling) b

/-- Does the part take as often as needed? -/
def isFilling (part : SetPart) : Bool :=
  match part with
  | repeated _ none => true
  | _ => false

/-- The name of the part, if it is a class. -/
def name? (part : SetPart) : Option Text :=
  match part with
  | named name => some name
  | _ => none

/-- Is the part a class of letters of one case? -/
def isCase (part : SetPart) : Bool :=
  part.name? = some "lower".toList || part.name? = some "upper".toList

/-- Is the part a byte with all that count as the same? -/
def isAlike (part : SetPart) : Bool :=
  match part with
  | alike _ => true
  | _ => false

/-- The places at which classes of letters of one case begin. -/
def casesFrom : Nat → List SetPart → List Nat
  | _, [] => []
  | n, part :: rest =>
    let more := casesFrom (n + (part.bytes 0).length) rest
    if part.isCase then n :: more else more

end SetPart

-- ======================================================== exchanges

/-- How bytes are exchanged. -/
structure ExchangeOptions where
  complement : Bool
  deletes : Bool
  squeezes : Bool
  truncates : Bool

/-- The two lists of bytes that sets stand for, the second one as long as it
takes. -/
def exchangeLists (o : ExchangeOptions) (first second : List SetPart)
    (isExchange : Bool) :
    Except Text (List UInt8 × List UInt8) := do
  if first.any (·.isFilling) then
    throw "the [c*] repeat construct may not appear in string1".toList
  let own := first.flatMap (·.bytes 0)
  let source :=
    if o.complement then SetPart.everyByte.filter (!own.contains ·) else own
  let short := (second.flatMap (·.bytes 0)).length
  let target := second.flatMap (·.bytes (source.length - short))
  if 1 < (second.filter (·.isFilling)).length then
    throw "only one [c*] repeat construct may appear in string2".toList
  if !isExchange then
    if second.any (·.isFilling) then
      throw
        "the [c*] construct may appear in string2 only when translating".toList
    return (source, target)
  if second.any (·.isAlike) then
    throw "[=c=] expressions may not appear in string2 when translating".toList
  if second.any fun part => part.name?.isSome && !part.isCase then
    throw
      ("when translating, the only character classes that may appear in\n" ++
      "string2 are 'upper' and 'lower'").toList
  let places := SetPart.casesFrom 0 second
  if !o.complement && !(places.filter (· ≤ source.length)).all
      (SetPart.casesFrom 0 first).contains then
    throw "misaligned [:upper:] and/or [:lower:] construct".toList
  let target ←
    if target.length < source.length && !o.truncates then
      match second.getLast?, target.getLast? with
      | some (.named _), _ =>
        throw ("when translating with string1 longer than string2,\n" ++
          "the latter string must not end with a character class").toList
      | _, some b =>
          pure (target ++ List.replicate (source.length - target.length) b)
      | _, none =>
          throw "when not truncating set1, string2 must be non-empty".toList
    else pure target
  if o.complement && first.any (·.name?.isSome) &&
      !(target.length = source.length
        && target.all (some · == target.head?)) then
    throw ("when translating with complemented character classes,\n" ++
      "string2 must map all characters in the domain to one").toList
  return (source, target)

/-- What becomes of a byte where one list is exchanged for another. -/
def exchanged (source target : List UInt8) (b : UInt8) : UInt8 :=
  let pairs := source.zip target
  ((pairs.reverse.find? (·.1 == b)).map (·.2)).getD b

/-- Bytes without those that repeat the byte before them and are in a
set. -/
def squeezed (set : List UInt8) (bytes : List UInt8) : List UInt8 :=
  let repeats (out : List UInt8) (b : UInt8) : Bool :=
    out.head? = some b && set.contains b
  (bytes.foldl (fun out b => if repeats out b then out else b :: out)
    []).reverse

section Utilities

variable {m : Type → Type} [Monad m] [FileTree m]

/-- Exchanges, deletes and squeezes bytes. -/
def exchange (o : ExchangeOptions) (self first : Text) (second : Option Text) :
    Eval m Nat := do
  for t in first :: second.toList do
    if SetByte.endsEscaped (Text.toBytes t) then
      protest self
        "warning: an unescaped backslash at end of string is not portable".toList
  let isExchange := second.isSome && !o.deletes
  let lists : Except Text (List UInt8 × List UInt8) := do
    let first ← SetPart.read first
    let second ← (second.map SetPart.read).getD (.ok [])
    exchangeLists o first second isExchange
  match lists with
  | .error e =>
    protest self e
    return 1
  | .ok (source, target) =>
    let stream ← drain 0
    let changed :=
      if o.deletes then stream.flatMap fun b => if source.contains b then []
      else [b]
      else if isExchange then
        let table := SetPart.everyByte.map (exchanged source target)
        stream.flatMap fun b => [table.getD b.toNat b]
      else stream
    if o.squeezes then
      if changed.isEndless then throw .unfinished
      let set := if second.isNone then source else target
      emit 1 (bytesOf (squeezed set changed.bytes.toList))
    else emit 1 changed
    return 0

/-- Exchanges, deletes and squeezes bytes, as `tr` is called. -/
def tr : Utility m :=
  withOptions { OptionTable.of "cCdst" [("complement", 'c'), ("delete", 'd'),
    ("squeeze-repeats", 's'), ("truncate-set1", 't')] with
    mixes := false } 1 fun self r => do
  let o : ExchangeOptions :=
    ⟨r.has 'c' || r.has 'C', r.has 'd', r.has 's', r.has 't'⟩
  let most := if o.deletes && !o.squeezes then 1 else 2
  let least := if o.deletes == o.squeezes then 2 else 1
  let advise (hint : String) : Eval m Nat := do
    emitText 2 (hint.toList ++ "Try '".toList ++ self ++
      " --help' for more information.\n".toList)
    return 1
  match r.operands with
  | [] => misused self 1 "missing operand".toList
  | first :: rest =>
    if r.operands.length < least then
      protest self ("missing operand after ".toList ++ quotedWord first)
      return ← advise (if o.squeezes then
          "Two strings must be given when both deleting and squeezing repeats.\n"
        else "Two strings must be given when translating.\n")
    if most < r.operands.length then
      protest self
        ("extra operand ".toList ++ quotedWord (r.operands.getD most []))
      return ← advise (if o.deletes && !o.squeezes then
          "Only one string may be given when deleting without squeezing repeats.\n"
        else "")
    exchange o self first rest.head?

end Utilities

end GridScript.Shell
