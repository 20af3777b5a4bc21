/-
The expressions that lines are searched for, in two notations. The plain
one writes groups, choices and counts with backslashes, the extended one
without. Of all places where an expression is found the first one counts,
and of all stretches that it matches there the longest.
-/
import GridScript.Number.Natural
import GridScript.Shell.Pattern
import GridScript.Text.Word

namespace GridScript.Shell

-- ======================================================== expressions

/-- An expression to search for. -/
inductive SearchExpression where
  | nothing
  | char (c : Char)
  | anyChar
  | set (negated : Bool) (members : List SetMember)
  | start
  | finish
  /-- A place between a character of a word and one of none; or, negated, any
  other place. -/
  | edge (negated : Bool)
  | wordStart
  | wordEnd
  | sequence (a b : SearchExpression)
  | choice (a b : SearchExpression)
  | times (least : Nat) (most : Option Nat) (e : SearchExpression)
  | group (n : Nat) (e : SearchExpression)
  /-- What a group matched. -/
  | again (n : Nat)
  deriving DecidableEq

/-- A place in a text: what is in front of it, backwards, what follows, and
what the groups have matched so far. -/
structure SearchPlace where
  before : Text
  rest : Text
  groups : List (Nat × Text)
  deriving DecidableEq

namespace SearchPlace

/-- How far into the text the place is. -/
def offset (p : SearchPlace) : Nat := p.before.length

/-- The place some characters later. -/
def advance (p : SearchPlace) (n : Nat) : SearchPlace :=
  { p with
    before := (p.rest.take n).reverse ++ p.before, rest := p.rest.drop n }

/-- Does the character in front of the place belong to a word? -/
def afterWordChar (p : SearchPlace) : Bool :=
  (p.before.head?.map Text.isWordChar).getD false

/-- Does the character at the place belong to a word? -/
def atWordChar (p : SearchPlace) : Bool :=
  (p.rest.head?.map Text.isWordChar).getD false

end SearchPlace

namespace SearchExpression

/-- The places where so many repetitions of a step end, those after the most
repetitions first. The budget bounds the number of repetitions. -/
def repeated (step : SearchPlace → List SearchPlace) :
    Nat → Nat → Option Nat → SearchPlace → List SearchPlace
  | 0, least, _, p => if least = 0 then [p] else []
  | budget + 1, least, most, p =>
    if most = some 0 then [p]
    else
      let onward := (step p).filter fun q => 0 < least || p.offset < q.offset
      let ends := (onward.flatMap
        (repeated step budget (least - 1) (most.map (· - 1)))).eraseDups
      if least = 0 then ends ++ [p] else ends

/-- The places where a match ends that begins at a place. -/
def ends : SearchExpression → SearchPlace → List SearchPlace
  | nothing, p => [p]
  | char c, p => if p.rest.head? = some c then [p.advance 1] else []
  | anyChar, p => if p.rest.isEmpty then [] else [p.advance 1]
  | set negated members, p =>
    if (p.rest.head?.map (setHas negated members)).getD false then
      [p.advance 1] else []
  | start, p => if p.before.isEmpty then [p] else []
  | finish, p => if p.rest.isEmpty then [p] else []
  | edge negated, p =>
      if (p.afterWordChar != p.atWordChar) != negated then [p] else []
  | wordStart, p => if !p.afterWordChar && p.atWordChar then [p] else []
  | wordEnd, p => if p.afterWordChar && !p.atWordChar then [p] else []
  | sequence a b, p => ((a.ends p).flatMap b.ends).eraseDups
  | choice a b, p => a.ends p ++ b.ends p
  | times least most e, p =>
      repeated e.ends (p.rest.length + least + 1) least most p
  | group n e, p =>
    (e.ends p).map fun q =>
      { q with
        groups :=
          (n, p.rest.take (q.offset - p.offset))
            :: q.groups.filter (·.1 != n) }
  | again n, p =>
    match p.groups.lookup n with
    | some t => if t.isPrefixOf p.rest then [p.advance t.length] else []
    | none => []

/-- The place where the longest match ends that begins at a place. -/
def longest? (e : SearchExpression) (p : SearchPlace) : Option SearchPlace :=
  (e.ends p).foldl (fun best q =>
    match best with
    | some b => if b.offset < q.offset then some q else some b
    | none => some q) none

/-- The first match at a place or after it. The budget bounds how far. -/
def findFrom? (e : SearchExpression) :
    Nat → SearchPlace → Option (SearchPlace × SearchPlace)
  | 0, _ => none
  | budget + 1, p =>
    match e.longest? p with
    | some q => some (p, q)
    | none => if p.rest.isEmpty then none else findFrom? e budget (p.advance 1)

/-- The first match at a place or after it: where it begins and ends. -/
def find? (e : SearchExpression) (p : SearchPlace) :
    Option (SearchPlace × SearchPlace) :=
  e.findFrom? (p.rest.length + 1) p

/-- Is the expression found in a line? -/
def isIn (e : SearchExpression) (line : Text) : Bool :=
  (e.find? ⟨[], line, []⟩).isSome

/-- A member of a set with the letters of the other case. -/
def foldedMembers : SetMember → List SetMember
  | .range a b =>
    let both := a.isAlpha && b.isAlpha
    .range a b :: if both then
      [.range a.toLower b.toLower, .range a.toUpper b.toUpper] else []
  | .named name =>
    .named name :: if name = "upper".toList || name = "lower".toList then
      [.named "alpha".toList]
      else []

/-- The expression that takes letters of either case for each other. -/
def folded : SearchExpression → SearchExpression
  | char c =>
    if c.isAlpha then
      .set false [.range c.toLower c.toLower, .range c.toUpper c.toUpper]
    else .char c
  | set negated members => .set negated (members.flatMap foldedMembers)
  | sequence a b => .sequence a.folded b.folded
  | choice a b => .choice a.folded b.folded
  | times least most e => .times least most e.folded
  | group n e => .group n e.folded
  | e => e

/-- How many groups the expression has. -/
def groups : SearchExpression → Nat
  | sequence a b => a.groups + b.groups
  | choice a b => a.groups + b.groups
  | times _ _ e => e.groups
  | group _ e => e.groups + 1
  | _ => 0

/-- The expression that stands for a text as it is. -/
def plain (t : Text) : SearchExpression :=
  t.foldr (fun c e => .sequence (.char c) e) .nothing

end SearchExpression

-- ======================================================== notations

/-- What is wrong with an expression. -/
inductive SearchError where
  | openSet
  | openGroup
  | closedGroup
  | openCount
  | badCount
  | nothingToRepeat
  | noSuchGroup
  | trailingBackslash
  deriving DecidableEq

/-- The wording of what is wrong. -/
def SearchError.message : SearchError → Text
  | openSet => "Unmatched [, [^, [:, [., or [=".toList
  | openGroup => "Unmatched ( or \\(".toList
  | closedGroup => "Unmatched ) or \\)".toList
  | openCount => "Unmatched \\\x7b".toList
  | badCount => "Invalid content of \\\x7b\\\x7d".toList
  | nothingToRepeat => "Invalid preceding regular expression".toList
  | noSuchGroup => "Invalid back reference".toList
  | trailingBackslash => "Trailing backslash".toList

/-- What comes next in the text of an expression. -/
inductive SearchToken where
  | char (c : Char)
  | opening
  | closing
  | bar
  | star
  | plus
  | maybe
  | brace
  | caret
  | dollar
  | dot
  | bracket
  | escape (c : Char)
  deriving DecidableEq

/-- The meaning of a character by itself in the extended notation, and after
a backslash in the plain one. -/
def SearchToken.ofOperator? (c : Char) : Option SearchToken :=
  match c with
  | '(' => some .opening
  | ')' => some .closing
  | '|' => some .bar
  | '+' => some .plus
  | '?' => some .maybe
  | '{' => some .brace
  | _ => none

/-- The token that comes next, and what follows it. -/
def SearchToken.read (extended : Bool) (t : Text) :
    Except SearchError (Option (SearchToken × Text)) :=
  match t with
  | [] => .ok none
  | ['\\'] => .error .trailingBackslash
  | '\\' :: c :: rest =>
    match SearchToken.ofOperator? c with
    | some token => .ok (some (if extended then .char c else token, rest))
    | none => .ok (some (.escape c, rest))
  | c :: rest =>
    let token : SearchToken :=
      match c, SearchToken.ofOperator? c with
      | '*', _ => .star
      | '^', _ => .caret
      | '$', _ => .dollar
      | '.', _ => .dot
      | '[', _ => .bracket
      | _, some token => if extended then token else .char c
      | _, none => .char c
    .ok (some (token, rest))

/-- The characters of words, as members of a set. -/
def wordMembers : List SetMember := [.named "alnum".toList, .range '_' '_']

/-- What a backslash in front of a character makes of it. -/
def escapedExpression (c : Char) : SearchExpression :=
  match c with
  | 'w' => .set false wordMembers
  | 'W' => .set true wordMembers
  | 's' => .set false [.named "space".toList]
  | 'S' => .set true [.named "space".toList]
  | 'b' => .edge false
  | 'B' => .edge true
  | '<' => .wordStart
  | '>' => .wordEnd
  | 'n' => .char '\n'
  | 't' => .char '\t'
  | c =>
      if c.isDigit && c != '0' then .again (Number.digitValue c) else .char c

/-- The bounds of a count up to what closes it, and what follows. -/
def readCount? (extended : Bool) (t : Text) :
    Except SearchError (Nat × Option Nat × Text) := do
  let low := t.takeWhile Char.isDigit
  let rest := t.dropWhile Char.isDigit
  let (most, rest) := match rest with
    | ',' :: rest =>
      let high := rest.takeWhile Char.isDigit
      (if high.isEmpty then none
        else some (Number.ofDigits 0 high), rest.dropWhile Char.isDigit)
    | rest => (some (Number.ofDigits 0 low), rest)
  if low.isEmpty && most.isNone then throw .badCount
  match extended, rest with
  | true, '\x7d' :: rest => return (Number.ofDigits 0 low, most, rest)
  | false, '\\' :: '\x7d' :: rest => return (Number.ofDigits 0 low, most, rest)
  | _, [] => throw .openCount
  | _, _ => throw .badCount

/-- How far an expression has been read: what is left of its text, and how
many groups it has so far. -/
structure SearchReading where
  rest : Text
  groups : Nat

mutual

/-- Branches with bars between them. -/
def readChoice (extended : Bool) : Nat → Bool → SearchReading →
    Except SearchError (SearchExpression × SearchReading)
  | 0, _, r => .ok (.nothing, r)
  | budget + 1, inGroup, r => do
    let (first, r) ← readBranch extended budget inGroup true r
    match ← SearchToken.read extended r.rest with
    | some (.bar, rest) =>
      let (second, r) ← readChoice extended budget inGroup { r with
          rest := rest }
      return (.choice first second, r)
    | _ => return (first, r)

/-- Parts one after the other. -/
def readBranch (extended : Bool) : Nat → Bool → Bool → SearchReading →
    Except SearchError (SearchExpression × SearchReading)
  | 0, _, _, r => .ok (.nothing, r)
  | budget + 1, inGroup, atStart, r => do
    match ← SearchToken.read extended r.rest with
    | none => return (.nothing, r)
    | some (.bar, _) => return (.nothing, r)
    | some (.closing, _) =>
      if inGroup then return (.nothing, r)
      else if extended then
        let (more, r) ← readBranch extended budget inGroup false { r with
            rest := r.rest.drop 1 }
        return (.sequence (.char ')') more, r)
      else throw .closedGroup
    | some (token, rest) =>
      let (part, r) ← readPart extended budget atStart token { r with
          rest := rest }
      let stillAtStart := !extended && atStart && part == .start
      let (part, r) ←
        if stillAtStart then pure (part, r)
        else readRepetitions extended budget part r
      let (more, r) ← readBranch extended budget inGroup stillAtStart r
      return (.sequence part more, r)

/-- A part that a token begins. -/
def readPart (extended : Bool) : Nat → Bool → SearchToken → SearchReading →
    Except SearchError (SearchExpression × SearchReading)
  | 0, _, _, r => .ok (.nothing, r)
  | budget + 1, atStart, token, r => do
    match token with
    | .char c => return (.char c, r)
    | .dot => return (.anyChar, r)
    | .caret => return (if extended || atStart then .start else .char '^', r)
    | .dollar =>
      let ends := match ← SearchToken.read extended r.rest with
        | none => true
        | some (.closing, _) => true
        | some (.bar, _) => true
        | _ => false
      return (if extended || ends then .finish else .char '$', r)
    | .bracket =>
      match readSet? false r.rest with
      | some (.set negated members, rest) =>
          return (.set negated members, { r with rest := rest })
      | _ => throw .openSet
    | .opening =>
      let n := r.groups + 1
      let (e, r) ← readChoice extended budget true { r with groups := n }
      match ← SearchToken.read extended r.rest with
      | some (.closing, rest) => return (.group n e, { r with rest := rest })
      | _ => throw .openGroup
    | .escape c =>
      match escapedExpression c with
      | .again n =>
          if r.groups < n then throw .noSuchGroup else return (.again n, r)
      | e => return (e, r)
    | .star => return (if extended then .nothing else .char '*', r)
    | .plus => if extended then return (.nothing, r) else return (.char '+', r)
    | .maybe =>
        if extended then return (.nothing, r) else return (.char '?', r)
    | .brace =>
        if extended then return (.char '\x7b', r) else throw .nothingToRepeat
    | _ => return (.nothing, r)

/-- A part with the repetitions that follow it. -/
def readRepetitions (extended : Bool) :
    Nat → SearchExpression → SearchReading →
    Except SearchError (SearchExpression × SearchReading)
  | 0, e, r => .ok (e, r)
  | budget + 1, e, r => do
    match ← SearchToken.read extended r.rest with
    | some (.star, rest) =>
      readRepetitions extended budget (.times 0 none e) { r with rest := rest }
    | some (.plus, rest) =>
      readRepetitions extended budget (.times 1 none e) { r with rest := rest }
    | some (.maybe, rest) =>
      readRepetitions extended budget (.times 0 (some 1) e) { r with
          rest := rest }
    | some (.brace, rest) =>
      let (least, most, rest) ← readCount? extended rest
      readRepetitions extended budget (.times least most e) { r with
          rest := rest }
    | _ => return (e, r)

end

/-- The expression of a text. -/
def SearchExpression.read (extended : Bool) (t : Text) :
    Except SearchError SearchExpression := do
  let (e, _) ← readChoice extended (4 * t.length + 8) false ⟨t, 0⟩
  return e

end GridScript.Shell
