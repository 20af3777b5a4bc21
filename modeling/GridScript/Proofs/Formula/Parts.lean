/-
Formulas taken apart. A formula consists of string literals, of runs of
letters, digits and underscores, and of single marks. A literal begins with
either quote and goes on to the next quote of the same kind that no
backslash stands in front of, or to the end if there is none.

A text can be taken apart in this way (`exists_parted`), and in one way only
(`Parted.unique`). What the first part is can be told by its first
character; how far it reaches depends on the kind. A literal is cut off at
the first quote that can close it (`Inner.unique`), and a run where the word
characters end.
-/
import GridScript.Proofs.Script.Tokens

namespace GridScript.Formula

open Script (isQuote)
open Text (isWordChar EndsWord)

-- ================================================================= parts

/-- A part of a formula. -/
inductive Part where
  /-- A string literal between its quotes. -/
  | literal (quote : Char) (inner : Text)
  /-- A string literal that no quote closes. -/
  | unclosed (quote : Char) (rest : Text)
  /-- Letters, digits and underscores. -/
  | run (s : Text)
  /-- A character of its own. -/
  | mark (c : Char)
  deriving DecidableEq

/-- The text inside a literal. A backslash goes together with the character
behind it, and none of the others is the quote. -/
inductive Inner (quote : Char) : Text → Prop
  | nil : Inner quote []
  | plain {c : Char} {t : Text} (hslash : c ≠ '\\') (hquote : c ≠ quote)
    (h : Inner quote t) :
    Inner quote (c :: t)
  | escape (c : Char) {t : Text} (h : Inner quote t) : Inner quote
    ('\\' :: c :: t)

/-- The text behind a quote that none closes. It may end with a backslash. -/
inductive Unclosed (quote : Char) : Text → Prop
  | nil : Unclosed quote []
  | slash : Unclosed quote ['\\']
  | plain {c : Char} {t : Text} (hslash : c ≠ '\\') (hquote : c ≠ quote)
    (h : Unclosed quote t) :
    Unclosed quote (c :: t)
  | escape (c : Char) {t : Text} (h : Unclosed quote t) : Unclosed quote
    ('\\' :: c :: t)

namespace Part

/-- A part as it is written. -/
def source : Part → Text
  | literal quote inner => quote :: (inner ++ [quote])
  | unclosed quote rest => quote :: rest
  | run s => s
  | mark c => [c]

def isLiteral : Part → Bool
  | literal .. => true
  | unclosed .. => true
  | _ => false

/-- The part holds what it is said to hold. -/
def WellFormed : Part → Prop
  | literal quote inner => isQuote quote = true ∧ Inner quote inner
  | unclosed quote rest => isQuote quote = true ∧ Unclosed quote rest
  | run s => s ≠ [] ∧ ∀ c ∈ s, isWordChar c = true
  | mark c => isQuote c = false ∧ isWordChar c = false

/-- The part does not go on with the next one. -/
def Meets : Part → Option Part → Prop
  | unclosed .., next => next = none
  | run _, next => ∀ s, next ≠ some (run s)
  | _, _ => True

/-- What the first character of a part is: a quote, and a word character. -/
def kind : Part → Bool × Bool
  | literal .. => (true, false)
  | unclosed .. => (true, false)
  | run _ => (false, true)
  | mark _ => (false, false)

end Part

/-- A text is put together of its parts. -/
def sourceOfParts (ps : List Part) : Text := ps.flatMap Part.source

/-- The parts are those of a text, each as long as it can be. -/
def Parted : List Part → Prop
  | [] => True
  | p :: ps => p.WellFormed ∧ p.Meets ps.head? ∧ Parted ps

theorem isWordChar_of_isQuote {c : Char} (h : isQuote c = true) :
    isWordChar c = false := by
  cases hword : isWordChar c with
  | false => rfl
  | true =>
      rw [Script.isQuote_of_isWordChar hword] at h
      cases h

theorem Part.WellFormed.head {p : Part} (h : p.WellFormed) :
    ∃ c t, p.source = c :: t ∧ p.kind = (isQuote c, isWordChar c) := by
  cases p with
  | literal quote inner =>
      exact ⟨quote, _, rfl, by rw [h.1, isWordChar_of_isQuote h.1]; rfl⟩
  | unclosed quote rest =>
      exact ⟨quote, _, rfl, by rw [h.1, isWordChar_of_isQuote h.1]; rfl⟩
  | run s =>
      obtain ⟨c, t, rfl⟩ := List.exists_cons_of_ne_nil h.1
      have hword := h.2 c List.mem_cons_self
      exact ⟨c, t, rfl, by rw [Script.isQuote_of_isWordChar hword, hword]; rfl⟩
  | mark c => exact ⟨c, [], rfl, by rw [h.1, h.2]; rfl⟩

theorem sourceOfParts_cons (p : Part) (ps : List Part) :
    sourceOfParts (p :: ps) = p.source ++ sourceOfParts ps := List.flatMap_cons

/-- The first part is told by the first character. -/
theorem Parted.head {p : Part} {ps : List Part} (h : Parted (p :: ps)) :
    ∃ c t, sourceOfParts (p :: ps) = c :: t
      ∧ p.kind = (isQuote c, isWordChar c) := by
  obtain ⟨c, t, hsource, hkind⟩ := h.1.head
  exact ⟨c,
    t ++ sourceOfParts ps, by rw [sourceOfParts_cons, hsource]; rfl, hkind⟩

/-- A run comes next if and only if a word character does. -/
theorem Parted.endsWord_iff {ps : List Part} (h : Parted ps) :
    EndsWord (sourceOfParts ps) ↔ ∀ s, ps.head? ≠ some (.run s) := by
  cases ps with
  | nil => exact iff_of_true (fun c hc => by cases hc) fun s hs => by cases hs
  | cons p ps =>
      obtain ⟨c, t, hsource, hkind⟩ := h.head
      rw [hsource]
      constructor
      · intro hends s hs
        injection hs with hs
        subst hs
        have hword : true = isWordChar c := congrArg Prod.snd hkind
        rw [hends c rfl] at hword
        cases hword
      · intro hrun
        refine Text.endsWord_cons ?_
        cases p with
        | run s => exact absurd rfl (hrun s)
        | _ => exact (congrArg Prod.snd hkind).symm

/-- A mark comes next if and only if its character does. -/
theorem Parted.head?_eq_mark {ps : List Part} (h : Parted ps) {c : Char}
    (hquote : isQuote c = false) (hword : isWordChar c = false) :
    (sourceOfParts ps).head? = some c ↔ ps.head? = some (.mark c) := by
  cases ps with
  | nil => exact iff_of_false (by rintro ⟨⟩) (by rintro ⟨⟩)
  | cons p ps =>
      obtain ⟨d, t, hsource, hkind⟩ := h.head
      constructor
      · intro hd
        rw [hsource, List.head?_cons] at hd
        injection hd with hd
        rw [hd, hquote, hword] at hkind
        cases p with
        | mark d' =>
            injection hsource with hd'
            rw [List.head?_cons, ← hd, ← hd']
        | _ => cases hkind
      · intro hp
        injection hp with hp
        rw [hp]
        rfl

-- ========================================================= taking it apart

/-- What follows a quote closes it or does not. -/
theorem closed_or_unclosed (quote : Char) :
    ∀ t, (∃ inner rest, Inner quote inner ∧ t = inner ++ quote :: rest)
      ∨ Unclosed quote t
  | [] => Or.inr .nil
  | c :: t => by
      by_cases hquote : c = quote
      · exact Or.inl ⟨[], t, .nil, by rw [hquote]; rfl⟩
      by_cases hslash : c = '\\'
      · subst hslash
        match t with
        | [] => exact Or.inr .slash
        | d :: t =>
            rcases closed_or_unclosed quote t with ⟨inner, rest, h, rfl⟩ | h
            · exact Or.inl ⟨'\\' :: d :: inner, rest, h.escape d, rfl⟩
            · exact Or.inr (h.escape d)
      · rcases closed_or_unclosed quote t with ⟨inner, rest, h, rfl⟩ | h
        · exact Or.inl ⟨c :: inner, rest, h.plain hslash hquote, rfl⟩
        · exact Or.inr (h.plain hslash hquote)

section Literals

variable {quote : Char} (hslash : quote ≠ '\\') {s t : Text}
  (h : Inner quote s)
include hslash h

/-- The first quote that can close a literal does. -/
theorem Inner.unique {s' t' : Text} (h' : Inner quote s')
    (heq : s ++ quote :: t = s' ++ quote :: t') : s = s' := by
  -- both are read from the left, and the same character ends them
  induction h generalizing s' with
  | nil =>
      cases h' with
      | nil => rfl
      | plain _ hquote _ => exact absurd (List.cons.inj heq).1.symm hquote
      | escape _ _ => exact absurd (List.cons.inj heq).1 hslash
  | plain hc hquote _ ih =>
      cases h' with
      | nil => exact absurd (List.cons.inj heq).1 hquote
      | plain _ _ h' =>
          obtain ⟨hhead, htail⟩ := List.cons.inj heq
          rw [hhead, ih h' htail]
      | escape _ _ => exact absurd (List.cons.inj heq).1 hc
  | escape c _ ih =>
      cases h' with
      | nil => exact absurd (List.cons.inj heq).1.symm hslash
      | plain hc _ _ => exact absurd (List.cons.inj heq).1.symm hc
      | escape _ h' =>
          obtain ⟨hhead, htail⟩ := List.cons.inj (List.cons.inj heq).2
          rw [hhead, ih h' htail]

/-- A literal that is closed is not an unclosed one. -/
theorem Inner.not_unclosed : ¬Unclosed quote (s ++ quote :: t) := by
  intro hopen
  induction h with
  | nil =>
      cases hopen with
      | slash => exact hslash rfl
      | plain _ hquote _ => exact hquote rfl
      | escape _ _ => exact hslash rfl
  | @plain c s hc hquote _ ih =>
      rw [List.cons_append] at hopen
      generalize s ++ quote :: t = rest at hopen ih
      cases hopen with
      | slash => exact hc rfl
      | plain _ _ hopen => exact ih hopen
      | escape _ _ => exact hc rfl
  | escape c _ ih =>
      cases hopen with
      | plain hc _ _ => exact hc rfl
      | escape _ hopen => exact ih hopen

end Literals

theorem exists_parted (t : Text) : ∃ ps, Parted ps ∧ sourceOfParts ps = t := by
  induction hn : t.length using Nat.strongRecOn generalizing t with
  | ind n ih =>
    cases t with
    | nil => exact ⟨[], trivial, rfl⟩
    | cons c t =>
        rw [List.length_cons] at hn
        by_cases hquote : isQuote c = true
        · rcases closed_or_unclosed c t with ⟨inner, rest, hinner, rfl⟩ | hopen
          · obtain ⟨ps, hps, hsource⟩ :=
              ih rest.length (by simp at hn; omega) rest rfl
            refine ⟨.literal c inner :: ps,
              ⟨⟨hquote, hinner⟩, trivial, hps⟩, ?_⟩
            rw [sourceOfParts_cons, hsource]
            simp [Part.source]
          · refine ⟨[.unclosed c t], ⟨⟨hquote, hopen⟩, rfl, trivial⟩, ?_⟩
            rw [sourceOfParts_cons]
            simp [Part.source, sourceOfParts]
        by_cases hword : isWordChar c = true
        · -- the run goes on as far as it can
          have hshorter : (Text.afterWord t).length ≤ t.length :=
            Text.length_dropWhile_le isWordChar t
          obtain ⟨ps, hps, hsource⟩ := ih _ (by omega) (Text.afterWord t) rfl
          refine ⟨.run (c :: Text.word t) :: ps,
            ⟨⟨List.cons_ne_nil _ _, ?_⟩, ?_, hps⟩, ?_⟩
          · exact List.forall_mem_cons.2
              ⟨hword, fun d hd => Text.isWordChar_of_mem_word hd⟩
          · refine hps.endsWord_iff.1 ?_
            rw [hsource]
            exact Text.endsWord_afterWord t
          · rw [sourceOfParts_cons, hsource]
            exact congrArg (c :: ·) (Text.word_append_afterWord t)
        · obtain ⟨ps, hps, hsource⟩ := ih t.length (by omega) t rfl
          refine ⟨.mark c :: ps, ⟨⟨?_, ?_⟩, trivial, hps⟩, ?_⟩
          · exact Bool.eq_false_iff.2 hquote
          · exact Bool.eq_false_iff.2 hword
          · rw [sourceOfParts_cons, hsource]
            rfl

theorem sourceOfParts_literal (quote : Char) (inner : Text) (ps : List Part) :
    sourceOfParts (.literal quote inner :: ps)
      = quote :: (inner ++ quote :: sourceOfParts ps) := by
  rw [sourceOfParts_cons]
  simp [Part.source]

/-- Nothing follows a literal that is not closed. -/
theorem Parted.sourceOfParts_unclosed {quote : Char} {rest : Text}
    {ps : List Part} (h : Parted (.unclosed quote rest :: ps)) :
    sourceOfParts (.unclosed quote rest :: ps) = quote :: rest := by
  have hlast : ps = [] := List.head?_eq_none_iff.1 h.2.1
  rw [hlast, sourceOfParts_cons]
  simp [Part.source, sourceOfParts]

theorem Parted.closed_ne_unclosed {quote quote' : Char} {inner rest : Text}
    {ps ps' : List Part} (h : Parted (.literal quote inner :: ps))
    (h' : Parted (.unclosed quote' rest :: ps')) :
    sourceOfParts (.literal quote inner :: ps)
      ≠ sourceOfParts (.unclosed quote' rest :: ps') := by
  rw [sourceOfParts_literal, h'.sourceOfParts_unclosed]
  intro heq
  injection heq with hquote hrest
  subst hquote
  have hopen := h'.1.2
  rw [← hrest] at hopen
  exact h.1.2.not_unclosed (Script.isQuote_ne_backslash h.1.1) hopen

/-- Parts that are put together to the same text begin with the same. -/
theorem Parted.first_unique {p p' : Part} {ps ps' : List Part}
    (h : Parted (p :: ps)) (h' : Parted (p' :: ps'))
    (heq : sourceOfParts (p :: ps) = sourceOfParts (p' :: ps')) :
    p = p' := by
  have hkind : p.kind = p'.kind := by
    obtain ⟨c, t, hsource, hkind⟩ := h.head
    obtain ⟨c', t', hsource', hkind'⟩ := h'.head
    rw [hsource, hsource'] at heq
    rw [hkind, hkind', (List.cons.inj heq).1]
  cases p with
  | literal quote inner =>
      cases p' with
      | literal quote' inner' =>
          rw [sourceOfParts_literal, sourceOfParts_literal] at heq
          obtain ⟨rfl, hrest⟩ := List.cons.inj heq
          rw [h.1.2.unique (Script.isQuote_ne_backslash h.1.1) h'.1.2 hrest]
      | unclosed quote' rest => exact absurd heq (h.closed_ne_unclosed h')
      | _ => cases hkind
  | unclosed quote rest =>
      cases p' with
      | literal quote' inner' =>
          exact absurd heq.symm (h'.closed_ne_unclosed h)
      | unclosed quote' rest' =>
          rw [h.sourceOfParts_unclosed, h'.sourceOfParts_unclosed] at heq
          obtain ⟨rfl, rfl⟩ := List.cons.inj heq
          rfl
      | _ => cases hkind
  | run s =>
      cases p' with
      | run s' =>
          -- both runs end where the word does
          have hs := Text.word_append h.1.2 (h.2.2.endsWord_iff.2 h.2.1)
          have hs' := Text.word_append h'.1.2 (h'.2.2.endsWord_iff.2 h'.2.1)
          rw [sourceOfParts_cons, sourceOfParts_cons] at heq
          have hsame : s = s' :=
            hs.symm.trans ((congrArg Text.word heq).trans hs')
          rw [hsame]
      | _ => cases hkind
  | mark c =>
      cases p' with
      | mark c' => rw [(List.cons.inj heq).1]
      | _ => cases hkind

/-- A text is taken apart in one way. -/
theorem Parted.unique {ps ps' : List Part} (h : Parted ps) (h' : Parted ps')
    (heq : sourceOfParts ps = sourceOfParts ps') : ps = ps' := by
  induction ps generalizing ps' with
  | nil =>
      cases ps' with
      | nil => rfl
      | cons p' ps' =>
          obtain ⟨c, t, hsource, -⟩ := h'.head
          rw [hsource] at heq
          cases heq
  | cons p ps ih =>
      cases ps' with
      | nil =>
          obtain ⟨c, t, hsource, -⟩ := h.head
          rw [hsource] at heq
          cases heq
      | cons p' ps' =>
          obtain rfl := h.first_unique h' heq
          rw [sourceOfParts_cons, sourceOfParts_cons] at heq
          rw [ih h.2.2 h'.2.2 (List.append_cancel_left heq)]

end GridScript.Formula
