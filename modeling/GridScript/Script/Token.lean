/-
The tokens of a script line: words, closed string literals, and every
other character by itself. A quote that is never closed is such a
character too. From there on every character stands by itself: whoever
comes across the quote in search of something knows that the rest of the
line belongs to no expression.

The tokens spell the line: nothing is dropped, blanks included. What a
line is can be told from the tokens alone.
-/
import GridScript.Script.Vocabulary
import GridScript.Text.Word

namespace GridScript.Script

/-- A token of a line. -/
inductive Token where
  | word (w : Text)
  /-- A closed string literal: as it is spelled and as it reads. -/
  | quoted (spelling text : Text)
  | mark (c : Char)
  deriving DecidableEq

/-- A token as it stands in the line. -/
def Token.source : Token → Text
  | word w => w
  | quoted spelling _ => spelling
  | mark c => [c]

/-- The text that tokens spell. -/
def sourceOf (ts : List Token) : Text := ts.flatMap Token.source

/-- What follows a literal is shorter than what it was read from. -/
theorem length_readBody? {q : Char} {t : Text} {r : QuotedRest}
    (h : readBody? q t = some r) :
    r.rest.length < t.length := by
  fun_induction readBody? q t generalizing r with
  | case1 => simp at h
  | case2 a b t c hc ih =>
    obtain ⟨r', hr', rfl⟩ := Option.map_eq_some_iff.1 h
    have := ih hr'
    simp [QuotedRest.prepend]; omega
  | case3 a b t hc ih =>
    obtain ⟨r', hr', rfl⟩ := Option.map_eq_some_iff.1 h
    have := ih hr'
    simp [QuotedRest.prepend] at this ⊢; omega
  | case4 e t _ c hc ih =>
    obtain ⟨r', hr', rfl⟩ := Option.map_eq_some_iff.1 h
    have := ih hr'
    simp [QuotedRest.prepend]; omega
  | case5 e t _ hc ih =>
    obtain ⟨r', hr', rfl⟩ := Option.map_eq_some_iff.1 h
    have := ih hr'
    simp [QuotedRest.prepend]; omega
  | case6 t => simp at h; simp [← h]
  | case7 => simp at h
  | case8 c t _ _ _ _ ih =>
    obtain ⟨r', hr', rfl⟩ := Option.map_eq_some_iff.1 h
    have := ih hr'
    simp [QuotedRest.prepend]; omega

/-- The tokens of a line. -/
def tokens : Text → List Token
  | [] => []
  | c :: t =>
    if isQuote c then
      match _closed : readBody? c t with
      | some r => .quoted (c :: r.spelling) r.text :: tokens r.rest
      | none => (c :: t).map .mark
    else if Text.isWordStart c then
      .word (c :: Text.word t) :: tokens (Text.afterWord t)
    else .mark c :: tokens t
termination_by t => t.length
decreasing_by
  · have := length_readBody? _closed; simp; omega
  · have :=
      Text.length_dropWhile_le Text.isWordChar t; simp [Text.afterWord]; omega
  · simp

/-- The tokens of a line spell the line. -/
theorem sourceOf_tokens (t : Text) : sourceOf (tokens t) = t := by
  fun_induction tokens t with
  | case1 => rfl
  | case2 c t hq r hr ih =>
    have := spelling_readBody? hr
    simp only [sourceOf, List.flatMap_cons, Token.source] at ih ⊢
    rw [ih, List.cons_append, this]
  | case3 c t hq hr => simp [sourceOf, List.flatMap_map, Token.source]
  | case4 c t hq hw ih =>
    simp only [sourceOf, List.flatMap_cons, Token.source] at ih ⊢
    rw [ih, List.cons_append, Text.word, Text.afterWord,
      List.takeWhile_append_dropWhile]
  | case5 c t hq hw ih =>
    simp only [sourceOf, List.flatMap_cons, Token.source] at ih ⊢
    rw [ih]; rfl

-- ======================================================== eating tokens

/-- Is the token a space or a tab? -/
def Token.isSpace : Token → Bool
  | mark c => c == ' ' || c == '\t'
  | _ => false

/-- Passes over spaces and tabs. -/
def skipSpaces (ts : List Token) : List Token := ts.dropWhile Token.isSpace

/-- What follows one or more spaces and tabs. -/
def eatSpaces? : List Token → Option (List Token)
  | [] => none
  | t :: ts => if t.isSpace then some (skipSpaces ts) else none

/-- A word and what follows it. -/
def eatWord? : List Token → Option (Text × List Token)
  | .word w :: ts => some (w, ts)
  | _ => none

/-- What follows this very word. -/
def eatKeyword? (w : Text) : List Token → Option (List Token)
  | .word v :: ts => if v = w then some ts else none
  | _ => none

/-- What follows this very character. -/
def eatMark? (c : Char) : List Token → Option (List Token)
  | .mark d :: ts => if d = c then some ts else none
  | _ => none

/-- What a literal reads as, and what follows it. -/
def eatQuoted? : List Token → Option (Text × List Token)
  | .quoted _ text :: ts => some (text, ts)
  | _ => none

/-- What follows an equals sign that assigns. Two of them compare. -/
def eatAssign? (ts : List Token) : Option (List Token) := do
  let rest ← eatMark? '=' ts
  if rest.head? = some (.mark '=') then none else return rest

/-- What follows an opening parenthesis, with spaces around it. -/
def eatOpening? (ts : List Token) : Option (List Token) :=
  (eatMark? '(' (skipSpaces ts)).map skipSpaces

-- ======================================================== phrases

/-- The table of a look-up, and what follows it. -/
def eatLookup? (ts : List Token) : Option (Text × List Token) := do
  let ts ← eatKeyword? projectName ts
  let ts ← eatMark? '.' ts
  let ts ← eatKeyword? lookupMethod ts
  let ts ← eatOpening? ts
  let (id, ts) ← eatQuoted? ts
  let ts ← eatMark? ')' (skipSpaces ts)
  return (id, ts)

/-- The name in front of an assignment, and what is assigned. -/
def eatBinding? (ts : List Token) : Option (Text × List Token) := do
  let (name, ts) ← eatWord? ts
  let ts ← eatAssign? (skipSpaces ts)
  return (name, skipSpaces ts)

/-- Is there nothing left but spaces? -/
def onlySpaces (ts : List Token) : Bool := (skipSpaces ts).isEmpty

/-- Is there nothing left but spaces and a comment? -/
def onlyComment (ts : List Token) : Bool :=
  match skipSpaces ts with
  | [] => true
  | t :: _ => t == .mark '#'

end GridScript.Script
