/-
The tokens of an inline formula. They are the only ones that spell the
formula and are `Legible`: each is made of the characters that its kind is
read from, and what follows it does not prolong it
(`readTokens?_eq_some_iff`). So a text is known to have certain tokens
without being read, and that is what is used of a text that is put together
from tokens.

A formula is put together again with its cells in lower case. To a reader a
letter is of one kind in either case (`kind_toLower`), so every token still
ends where it ended, and the tokens of the result are those of the formula
with their cells in lower case (`inlineTokens?_renderInline`).
-/
import GridScript.Formula.Inline
import GridScript.Proofs.Grid.Spelling

namespace GridScript

open Text (IsWord EndsWord Unbroken isBlank isWordChar isWordStart)

namespace Formula

-- ============================================================ characters

theorem isNumberChar_iff {c : Char} :
    isNumberChar c = true ↔ c.isDigit = true ∨ c = '.' := by
  simp [isNumberChar]

theorem isOperator_iff {c : Char} :
    isOperator c = true ↔ c = '+' ∨ c = '-' ∨ c = '*' ∨ c = '/' := by
  simp [isOperator, or_assoc]

theorem isBlank_of_isOperator {c : Char} (h : isOperator c = true) :
    isBlank c = false := by
  rcases isOperator_iff.1 h with rfl | rfl | rfl | rfl <;> decide

theorem isBlank_of_isNumberChar {c : Char} (h : isNumberChar c = true) :
    isBlank c = false := by
  rcases isNumberChar_iff.1 h with h | rfl
  · exact Text.isBlank_of_isWordChar (Number.isWordChar_of_isDigit h)
  · decide

theorem isOperator_of_isNumberChar {c : Char} (h : isNumberChar c = true) :
    isOperator c = false := by
  rw [Bool.eq_false_iff]
  intro hoperator
  rcases isOperator_iff.1 hoperator with rfl | rfl | rfl | rfl <;> revert h
    <;> decide

theorem isOperator_of_isWordStart {c : Char} (h : isWordStart c = true) :
    isOperator c = false := by
  rw [Bool.eq_false_iff]
  intro hoperator
  rcases isOperator_iff.1 hoperator with rfl | rfl | rfl | rfl <;> revert h
    <;> decide

theorem isNumberChar_of_isWordStart {c : Char} (h : isWordStart c = true) :
    isNumberChar c = false := by
  rw [Bool.eq_false_iff]
  intro hnumber
  rcases isNumberChar_iff.1 hnumber with hdigit | rfl
  · unfold isWordStart at h
    rw [Bool.or_eq_true, Text.isAlpha_of_isDigit hdigit, beq_iff_eq] at h
    rcases h with h | rfl
    · cases h
    · revert hdigit
      decide
  · revert h
    decide

/-- What a reader asks of a character. -/
def kind (c : Char) : Bool × Bool × Bool × Bool × Bool :=
  (isBlank c, isWordChar c, isWordStart c, isNumberChar c, c == '.')

/-- All letters are of one kind. -/
theorem kind_of_isAlpha {c : Char} (h : c.isAlpha = true) :
    kind c = (false, true, true, false, false) := by
  have hstart : isWordStart c = true := by
    unfold isWordStart
    rw [h]
    rfl
  have hword := Text.isWordChar_of_isWordStart hstart
  have hpoint : (c == '.') = false := by
    rw [beq_eq_false_iff_ne]
    rintro rfl
    cases h
  unfold kind
  rw [Text.isBlank_of_isWordChar hword, hword, hstart,
    isNumberChar_of_isWordStart hstart, hpoint]

/-- A character and its lower case are both letters, if they differ. -/
theorem toLower_cases (c : Char) :
    c.toLower = c ∨ (c.isAlpha = true ∧ c.toLower.isAlpha = true) := by
  by_cases hupper : c.isUpper = true
  · right
    refine ⟨Text.isAlpha_iff.2 (Or.inl hupper), ?_⟩
    rw [← Text.isAlpha_toUpper, Text.toUpper_toLower, Text.isAlpha_toUpper]
    exact Text.isAlpha_iff.2 (Or.inl hupper)
  · left
    unfold Char.toLower
    rw [dif_neg]
    exact fun hbounds => hupper (Text.isUpper_iff.2 hbounds)

theorem kind_toLower (c : Char) : kind c.toLower = kind c := by
  rcases toLower_cases c with hsame | ⟨halpha, hlowered⟩
  · rw [hsame]
  · rw [kind_of_isAlpha halpha, kind_of_isAlpha hlowered]

-- ========================================================= legible tokens

/-- The name of a cell is a word. -/
theorem isWord_of_isCellName {cell : Text} (h : isCellName cell = true) :
    IsWord cell := by
  have hchars := isAlphanum_of_isCellName h
  cases cell with
  | nil => cases h
  | cons c t =>
      have hword : ∀ d ∈ c :: t, isWordChar d = true := fun d hd => by
        unfold isWordChar
        rw [hchars d hd]
        rfl
      refine ⟨?_, fun d hd => hword d (List.mem_cons_of_mem c hd)⟩
      unfold isWordStart
      cases halpha : c.isAlpha with
      | true => rfl
      | false =>
          unfold isCellName at h
          rw [List.takeWhile_cons_of_neg (by rw [halpha]; decide)] at h
          cases h

/-- The token is made of the characters that its kind is read from. -/
def InlineToken.WellFormed : InlineToken → Prop
  | reference table cell =>
      (∀ name ∈ table, IsWord name) ∧ isCellName cell = true
  | number spelling =>
      Number.isNumeral spelling = true ∧ ∀ c ∈ spelling, isNumberChar c = true
  | operator c => isOperator c = true
  | blanks t => t ≠ [] ∧ ∀ c ∈ t, isBlank c = true

/-- What follows does not prolong the token. A cell in front of a point and
a word would be a table, and a number in front of a word is none. -/
def InlineToken.EndsAt (rest : Text) : InlineToken → Prop
  | reference table _ =>
      EndsWord rest ∧ (table = none → qualified? rest = none)
  | number _ => EndsWord rest ∧ ∀ c ∈ rest.head?, isNumberChar c = false
  | operator _ => True
  | blanks _ => ∀ c ∈ rest.head?, isBlank c = false

/-- The tokens can be told apart when they stand side by side. -/
def Legible : List InlineToken → Prop
  | [] => True
  | token :: tokens =>
    token.WellFormed ∧ token.EndsAt (tokens.flatMap InlineToken.source)
      ∧ Legible tokens

-- =============================================================== reading

/-- What follows the point of a qualified name. -/
theorem qualified?_eq_some_iff {t rest : Text} :
    qualified? t = some rest ↔ t = '.' :: rest ∧ startsWord rest = true := by
  unfold qualified?
  constructor
  · intro h
    split at h
    next tail =>
        split at h
        case isTrue hword =>
            injection h with h
            exact ⟨by rw [h], h ▸ hword⟩
        case isFalse => cases h
    next => cases h
  · rintro ⟨rfl, hword⟩
    simp [hword]

theorem qualified?_eq_none_iff {t : Text} :
    qualified? t = none
      ↔ ∀ c rest, t = '.' :: c :: rest → ¬isWordStart c = true := by
  rw [Option.eq_none_iff_forall_not_mem]
  constructor
  · rintro h c rest rfl hstart
    exact h (c :: rest) (qualified?_eq_some_iff.2 ⟨rfl, hstart⟩)
  · intro h rest hrest
    obtain ⟨rfl, hstart⟩ := qualified?_eq_some_iff.1 (Option.mem_def.1 hrest)
    cases rest with
    | nil => cases hstart
    | cons c rest => exact h c rest rfl hstart

theorem continuesWord_eq_false_iff {t : Text} :
    continuesWord t = false ↔ EndsWord t := by
  cases t with
  | nil => exact iff_of_true rfl fun c hc => by cases hc
  | cons c t => simp [continuesWord, EndsWord]

/-- What is read is what was written. -/
theorem source_readTokens? {t : Text} {tokens : List InlineToken}
    (h : readTokens? t = some tokens) :
    tokens.flatMap InlineToken.source = t := by
  fun_induction readTokens? t generalizing tokens with
  | case1 =>
      injection h with h
      rw [← h]
      rfl
  | case2 c t hblank ih =>
      obtain ⟨rest, hrest, rfl⟩ := Option.map_eq_some_iff.1 h
      rw [List.flatMap_cons, ih hrest, InlineToken.source, List.cons_append,
        List.takeWhile_append_dropWhile]
  | case3 c t hblank hoperator ih =>
      obtain ⟨rest, hrest, rfl⟩ := Option.map_eq_some_iff.1 h
      rw [List.flatMap_cons, ih hrest]
      rfl
  | case4 => cases h
  | case5 c t hblank hoperator hnumber spelling rest hok =>
      rename_i ih
      obtain ⟨rest', hrest, rfl⟩ := Option.map_eq_some_iff.1 h
      rw [List.flatMap_cons, ih hrest, InlineToken.source]
      show c :: (t.takeWhile isNumberChar ++ t.dropWhile isNumberChar) = c :: t
      rw [List.takeWhile_append_dropWhile]
  | case6 c t hblank hoperator hnumber hword name rest hqualified cell hcell =>
      rename_i ih
      obtain ⟨rest', hrest, rfl⟩ := Option.map_eq_some_iff.1 h
      have hafter : Text.afterWord t = '.' :: rest :=
        (qualified?_eq_some_iff.1 hqualified).1
      rw [List.flatMap_cons, ih hrest, InlineToken.source]
      show c :: (Text.word t ++ '.' :: cell ++ Text.afterWord rest) = c :: t
      rw [List.append_assoc, List.cons_append,
        Text.word_append_afterWord, ← hafter, Text.word_append_afterWord]
  | case7 => cases h
  | case8 c t hblank hoperator hnumber hword name hqualified hcell =>
      rename_i ih
      obtain ⟨rest', hrest, rfl⟩ := Option.map_eq_some_iff.1 h
      rw [List.flatMap_cons, ih hrest, InlineToken.source]
      show c :: (Text.word t ++ Text.afterWord t) = c :: t
      rw [Text.word_append_afterWord]
  | case9 => cases h
  | case10 => cases h

/-- Each token is as long as it can be. -/
theorem legible_of_readTokens? {t : Text} {tokens : List InlineToken}
    (h : readTokens? t = some tokens) : Legible tokens := by
  fun_induction readTokens? t generalizing tokens with
  | case1 =>
      injection h with h
      subst h
      trivial
  | case2 c t hblank ih =>
      obtain ⟨rest, hrest, rfl⟩ := Option.map_eq_some_iff.1 h
      refine ⟨⟨List.cons_ne_nil _ _,
        List.forall_mem_cons.2 ⟨hblank, fun d hd => ?_⟩⟩, ?_, ih hrest⟩
      · exact List.all_eq_true.1 List.all_takeWhile d hd
      · rw [source_readTokens? hrest]
        exact Text.head?_dropWhile isBlank t
  | case3 c t hblank hoperator ih =>
      obtain ⟨rest, hrest, rfl⟩ := Option.map_eq_some_iff.1 h
      exact ⟨hoperator, trivial, ih hrest⟩
  | case4 => cases h
  | case5 c t hblank hoperator hnumber spelling rest hok =>
      rename_i ih
      obtain ⟨rest', hrest, rfl⟩ := Option.map_eq_some_iff.1 h
      rw [Bool.not_eq_true, Bool.or_eq_false_iff, Bool.not_eq_false'] at hok
      refine ⟨⟨hok.1, List.forall_mem_cons.2 ⟨hnumber, fun d hd => ?_⟩⟩, ?_,
        ih hrest⟩
      · exact List.all_eq_true.1 List.all_takeWhile d hd
      · rw [source_readTokens? hrest]
        exact ⟨continuesWord_eq_false_iff.1 hok.2,
          Text.head?_dropWhile isNumberChar t⟩
  | case6 c t hblank hoperator hnumber hword name rest hqualified cell hcell =>
      rename_i ih
      obtain ⟨rest', hrest, rfl⟩ := Option.map_eq_some_iff.1 h
      refine ⟨⟨fun other hother => ?_, hcell⟩, ?_, ih hrest⟩
      · cases hother
        exact ⟨hword, fun d hd => Text.isWordChar_of_mem_word hd⟩
      · rw [source_readTokens? hrest]
        exact ⟨Text.endsWord_afterWord rest, fun hnone => by cases hnone⟩
  | case7 => cases h
  | case8 c t hblank hoperator hnumber hword name hqualified hcell =>
      rename_i ih
      obtain ⟨rest', hrest, rfl⟩ := Option.map_eq_some_iff.1 h
      refine ⟨⟨fun other hother => (by cases hother), hcell⟩, ?_, ih hrest⟩
      rw [source_readTokens? hrest]
      exact ⟨Text.endsWord_afterWord t, fun _ => hqualified⟩
  | case9 => cases h
  | case10 => cases h

theorem readTokens?_wordStart {c : Char} (h : isWordStart c = true)
    (t : Text) :
    readTokens? (c :: t) =
      match qualified? (Text.afterWord t) with
      | some rest =>
        if isCellName (Text.word rest) then
          (readTokens? (Text.afterWord rest)).map
            (.reference (some (c :: Text.word t)) (Text.word rest) :: ·)
        else none
      | none =>
        if isCellName (c :: Text.word t) then
          (readTokens? (Text.afterWord t)).map
            (.reference none (c :: Text.word t) :: ·)
        else none := by
  have hblank := Text.isBlank_of_isWordChar (Text.isWordChar_of_isWordStart h)
  rw [readTokens?, if_neg (by rw [hblank]; decide),
    if_neg (by rw [isOperator_of_isWordStart h]; decide),
    if_neg (by rw [isNumberChar_of_isWordStart h]; decide), if_pos h]
  simp only
  split
  next heq => simp only [heq]
  next heq => simp only [heq]

/-- A token in front of what does not prolong it is read first. -/
theorem readTokens?_append {token : InlineToken} {rest : Text}
    (hformed : token.WellFormed) (hends : token.EndsAt rest) :
    readTokens? (token.source ++ rest)
      = (readTokens? rest).map (token :: ·) := by
  cases token with
  | blanks t =>
      obtain ⟨hne, hblank⟩ := hformed
      obtain ⟨c, t, rfl⟩ := List.exists_cons_of_ne_nil hne
      obtain ⟨hc, ht⟩ := List.forall_mem_cons.1 hblank
      show readTokens? (c :: (t ++ rest)) = _
      rw [readTokens?, if_pos hc, Text.takeWhile_run ht hends,
        Text.dropWhile_run ht hends]
  | operator c =>
      have hoperator : isOperator c = true := hformed
      show readTokens? (c :: rest) = _
      rw [readTokens?,
        if_neg (by rw [isBlank_of_isOperator hoperator]; decide),
        if_pos hoperator]
  | number spelling =>
      obtain ⟨hnumeral, hchars⟩ := hformed
      obtain ⟨hword, hrest⟩ := hends
      obtain ⟨c, t, rfl⟩ : ∃ c t, spelling = c :: t := by
        cases spelling with
        | nil => cases hnumeral
        | cons c t => exact ⟨c, t, rfl⟩
      obtain ⟨hc, ht⟩ := List.forall_mem_cons.1 hchars
      show readTokens? (c :: (t ++ rest)) = _
      rw [readTokens?, if_neg (by rw [isBlank_of_isNumberChar hc]; decide),
        if_neg (by rw [isOperator_of_isNumberChar hc]; decide), if_pos hc,
        Text.takeWhile_run ht hrest, Text.dropWhile_run ht hrest]
      simp only [hnumeral, continuesWord_eq_false_iff.2 hword]
      rfl
  | reference table cell =>
      obtain ⟨htable, hcell⟩ := hformed
      obtain ⟨hword, hpoint⟩ := hends
      have hname := isWord_of_isCellName hcell
      cases table with
      | none =>
          obtain ⟨c, t, rfl⟩ := List.exists_cons_of_ne_nil hname.ne_nil
          show readTokens? (c :: (t ++ rest)) = _
          rw [readTokens?_wordStart hname.1, Text.word_append hname.2 hword,
            Text.afterWord_append hname.2 hword, hpoint rfl]
          exact if_pos hcell
      | some table =>
          have htable := htable table rfl
          obtain ⟨c, t, rfl⟩ := List.exists_cons_of_ne_nil htable.ne_nil
          -- the name of the table ends at the point
          have hpoint : EndsWord ('.' :: (cell ++ rest)) :=
            Text.endsWord_cons (by decide)
          have hqualified : qualified? ('.' :: (cell ++ rest))
              = some (cell ++ rest) := by
            obtain ⟨d, cell, rfl⟩ := List.exists_cons_of_ne_nil hname.ne_nil
            exact qualified?_eq_some_iff.2 ⟨rfl, hname.1⟩
          have hsource : (InlineToken.reference (some (c :: t)) cell).source
              ++ rest
              = c :: (t ++ '.' :: (cell ++ rest)) := by
            simp [InlineToken.source]
          rw [hsource, readTokens?_wordStart htable.1,
            Text.word_append htable.2 hpoint,
            Text.afterWord_append htable.2 hpoint, hqualified]
          simp only
          rw [Text.word_append hname.isWordChar hword,
            Text.afterWord_append hname.isWordChar hword, if_pos hcell]

/-- The tokens of a text are the legible ones that spell it. -/
theorem readTokens?_eq_some_iff {t : Text} {tokens : List InlineToken} :
    readTokens? t = some tokens
      ↔ tokens.flatMap InlineToken.source = t ∧ Legible tokens := by
  constructor
  · exact fun h => ⟨source_readTokens? h, legible_of_readTokens? h⟩
  · rintro ⟨rfl, hlegible⟩
    induction tokens with
    | nil =>
        rw [List.flatMap_nil, readTokens?]
    | cons token tokens ih =>
        obtain ⟨hformed, hends, hrest⟩ := hlegible
        rw [List.flatMap_cons, readTokens?_append hformed hends, ih hrest]
        rfl

theorem inlineTokens?_eq_some_iff {t : Text} {tokens : List InlineToken} :
    inlineTokens? t = some tokens
      ↔ tokens.flatMap InlineToken.source = t ∧ Legible tokens
        ∧ tokens.any InlineToken.isOperand = true := by
  rw [← and_assoc, ← readTokens?_eq_some_iff]
  unfold inlineTokens?
  constructor
  · intro h
    split at h
    next found hfound =>
        split at h
        case isTrue hoperand =>
            injection h with h
            subst h
            exact ⟨hfound, hoperand⟩
        case isFalse => cases h
    next => cases h
  · rintro ⟨hread, hoperand⟩
    rw [hread]
    exact if_pos hoperand

-- ============================================================ lower case

/-- A property that does not tell letters apart has nothing to do with
case. -/
theorem map_renderInline {β : Type} {p : Char → β}
    (h : ∀ c : Char, p c.toLower = p c) (tokens : List InlineToken) :
    (renderInline tokens).map p
      = (tokens.flatMap InlineToken.source).map p := by
  have hlower : ∀ t : Text, (Text.lower t).map p = t.map p := by
    intro t
    unfold Text.lower
    rw [List.map_map]
    exact List.map_congr_left fun c _ => h c
  unfold renderInline
  induction tokens with
  | nil => rfl
  | cons token tokens ih =>
      -- only the cells of references are spelled anew
      have hsame : token.lowered.source.map p = token.source.map p := by
        cases token with
        | reference table cell =>
            cases table with
            | none => exact hlower cell
            | some table =>
                show (table ++ '.' :: Text.lower cell).map p
                    = (table ++ '.' :: cell).map p
                rw [List.map_append, List.map_append, List.map_cons,
                  List.map_cons, hlower]
        | _ => rfl
      rw [List.flatMap_cons, List.flatMap_cons, List.map_append,
        List.map_append, ih, hsame]

/-- A character that is no letter is where it was. -/
theorem mem_renderInline {d : Char} (hd : d.isAlpha = false)
    (tokens : List InlineToken) :
    d ∈ renderInline tokens ↔ d ∈ tokens.flatMap InlineToken.source := by
  have hblind : ∀ c : Char, (c.toLower == d) = (c == d) := by
    intro c
    rcases toLower_cases c with hsame | ⟨halpha, hlowered⟩
    · rw [hsame]
    · have hne : ∀ e : Char, e.isAlpha = true → (e == d) = false := by
        intro e he
        rw [beq_eq_false_iff_ne]
        rintro rfl
        rw [hd] at he
        cases he
      rw [hne _ halpha, hne _ hlowered]
  have hfound : ∀ t : Text, d ∈ t ↔ true ∈ t.map fun c => c == d := by
    intro t
    rw [List.mem_map]
    constructor
    · exact fun h => ⟨d, h, beq_self_eq_true d⟩
    · rintro ⟨c, hc, heq⟩
      exact eq_of_beq heq ▸ hc
  rw [hfound, hfound, map_renderInline hblind]

/-- An inline formula is broken where it was. -/
theorem unbroken_renderInline {t : Text} {tokens : List InlineToken}
    (h : readTokens? t = some tokens) :
    Unbroken (renderInline tokens) ↔ Unbroken t := by
  unfold Text.Unbroken
  rw [mem_renderInline (by decide), mem_renderInline (by decide),
    source_readTokens? h]

/-- Whether a token ends depends on what kinds of characters follow. -/
theorem InlineToken.EndsAt.of_kinds {token : InlineToken} {a b : Text}
    (hkinds : a.map kind = b.map kind) (h : token.EndsAt a) :
    token.EndsAt b := by
  -- the first characters of `a` and `b` are of one kind
  have hhead : ∀ {p : Char → Bool}, (∀ c d, kind c = kind d → p c = p d) →
      (∀ c ∈ a.head?, p c = false) → ∀ c ∈ b.head?, p c = false := by
    intro p hp ha d hd
    cases a with
    | nil =>
        rw [List.map_eq_nil_iff.1 hkinds.symm] at hd
        cases hd
    | cons c a =>
        cases b with
        | nil => cases hd
        | cons e b =>
            injection hd with hd
            injection hkinds with hkind
            rw [← hd, ← hp c e hkind]
            exact ha c rfl
  have hblank : ∀ c d, kind c = kind d → isBlank c = isBlank d := fun c d h =>
    congrArg Prod.fst h
  have hword : ∀ c d, kind c = kind d → isWordChar c = isWordChar d :=
    fun c d h =>
      congrArg (fun k => k.2.1) h
  have hnumber : ∀ c d, kind c = kind d → isNumberChar c = isNumberChar d :=
    fun c d h =>
      congrArg (fun k => k.2.2.2.1) h
  cases token with
  | operator c => trivial
  | blanks t => exact hhead hblank h
  | number spelling => exact ⟨hhead hword h.1, hhead hnumber h.2⟩
  | reference table cell =>
      refine ⟨hhead hword h.1, fun hnone => ?_⟩
      rw [qualified?_eq_none_iff]
      -- a point and a word in `b` would be a point and a word in `a`
      rintro d b rfl hstart
      obtain ⟨c, a, rfl, hpoint, htail⟩ := List.map_eq_cons_iff.1 hkinds
      obtain ⟨e, a, rfl, hkind, -⟩ := List.map_eq_cons_iff.1 htail
      have hc : (c == '.') = true := congrArg (fun k => k.2.2.2.2) hpoint
      have he : isWordStart e = true :=
        (congrArg (fun k => k.2.2.1) hkind).trans hstart
      exact qualified?_eq_none_iff.1 (h.2 hnone) e a (by rw [eq_of_beq hc]) he

theorem isCellName_lower {cell : Text} (h : isCellName cell = true) :
    isCellName (Text.lower cell) = true := by
  obtain ⟨row, col, hspells⟩ := exists_spells h
  exact (Spells.lower_iff.2 hspells).isCellName

/-- Tokens stay legible when their cells are put in lower case. -/
theorem Legible.lowered {tokens : List InlineToken} (h : Legible tokens) :
    Legible (tokens.map InlineToken.lowered) := by
  induction tokens with
  | nil => trivial
  | cons token tokens ih =>
      obtain ⟨hformed, hends, hrest⟩ := h
      have hkinds : (tokens.flatMap InlineToken.source).map kind
          = ((tokens.map InlineToken.lowered).flatMap InlineToken.source).map
            kind := by
        rw [List.flatMap_map]
        exact (map_renderInline kind_toLower tokens).symm
      refine ⟨?_, ?_, ih hrest⟩
      · cases token with
        | reference table cell => exact ⟨hformed.1, isCellName_lower hformed.2⟩
        | _ => exact hformed
      · have hends := hends.of_kinds hkinds
        cases token with
        | _ => exact hends

/-- A formula that is put together again has the same tokens, with their
cells in lower case. -/
theorem inlineTokens?_renderInline {t : Text} {tokens : List InlineToken}
    (h : inlineTokens? t = some tokens) :
    inlineTokens? (renderInline tokens)
      = some (tokens.map InlineToken.lowered) := by
  obtain ⟨-, hlegible, hoperand⟩ := inlineTokens?_eq_some_iff.1 h
  refine inlineTokens?_eq_some_iff.2
    ⟨List.flatMap_map .., hlegible.lowered, ?_⟩
  have hsame : InlineToken.isOperand ∘ InlineToken.lowered
      = InlineToken.isOperand := by
    funext token
    cases token <;> rfl
  rw [List.any_map, hsame]
  exact hoperand

end Formula

end GridScript
