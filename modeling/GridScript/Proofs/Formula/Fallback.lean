/-
Formulas for the evaluator. The text is passed from left to right, a
character at a time, but what comes out can be told from the parts of the
formula (`renameFrom_source`). Of these only a run is ever replaced, and
whether it is depends on the run and the two parts beside it (`function?`).

The new text has the same literals, and nothing in it is left to replace:
of the new name the first word has no opening parenthesis behind it, and
the second has a point in front.
-/
import GridScript.Formula.Fallback
import GridScript.Proofs.Formula.Parts

namespace GridScript.Formula

open Script (isQuote isQuote_iff)
open Text (isWordChar isWordStart EndsWord)

-- =========================================================== replaced names

/-- The aggregates that the evaluator has functions for, which all are found
under one name. -/
def arrayFunctions : List (Text × Text) :=
  [("SUM".toList, "sum".toList), ("AVERAGE".toList, "mean".toList),
    ("MIN".toList, "min".toList), ("MAX".toList, "max".toList)]

/-- The function that a part between two others is replaced by. It is a run
that names an aggregate, with no point in front and an opening parenthesis
behind. -/
def function? (before next : Option Part) : Part → Option Text
  | .run s =>
    if before ≠ some (.mark '.') ∧ next = some (.mark '(') then
      arrayFunctions.lookup s else none
  | _ => none

/-- The parts of a function's name. -/
def functionParts (function : Text) : List Part :=
  [.run "np".toList, .mark '.', .run function]

/-- The parts behind a part, with the names in them replaced. -/
def renamed : Option Part → List Part → List Part
  | _, [] => []
  | before, p :: ps =>
    ((function? before ps.head? p).map functionParts).getD [p]
      ++ renamed (some p) ps

theorem mem_arrayFunctions {name function : Text}
    (h : arrayFunctions.lookup name = some function) :
    (name, function) ∈ arrayFunctions := by
  obtain ⟨before, after, heq, -⟩ := List.lookup_eq_some_iff.1 h
  rw [heq]
  exact List.mem_append_right before List.mem_cons_self

theorem arrayName?_eq (a : Aggregate) :
    a.arrayName?
      = (arrayFunctions.lookup a.formulaName).map ("np.".toList ++ ·) := by
  cases a <;> rfl

theorem exists_aggregate {name function : Text}
    (h : arrayFunctions.lookup name = some function) :
    ∃ a, Aggregate.ofName? name = some a ∧ a.formulaName = name := by
  have hall : ∀ entry ∈ arrayFunctions, ∃ a ∈ Aggregate.all,
      Aggregate.ofName? entry.1 = some a ∧ a.formulaName = entry.1 := by decide
  obtain ⟨a, -, ha⟩ := hall _ (mem_arrayFunctions h)
  exact ⟨a, ha⟩

/-- The name of an aggregate is a word. -/
theorem isWord_of_lookup {name function : Text}
    (h : arrayFunctions.lookup name = some function) : Text.IsWord name := by
  have hall : ∀ entry ∈ arrayFunctions, Text.IsWord entry.1 := by decide
  exact hall _ (mem_arrayFunctions h)

/-- A function has another name than an aggregate. -/
theorem function_facts {name function : Text}
    (h : arrayFunctions.lookup name = some function) :
    Text.IsWord function ∧ arrayFunctions.lookup function = none := by
  have hall : ∀ entry ∈ arrayFunctions,
      Text.IsWord entry.2 ∧ arrayFunctions.lookup entry.2 = none := by decide
  exact hall _ (mem_arrayFunctions h)

-- ========================================================= passing the text

section Passing

variable {s rest : Text}

/-- A run is replaced if it is called and is the name of an aggregate. -/
theorem replacement?_append (hs : ∀ c ∈ s, isWordChar c = true)
    (hrest : EndsWord rest) :
    replacement? (s ++ rest) = if rest.head? = some '(' then
      (arrayFunctions.lookup s).map ("np.".toList ++ ·) else none := by
  unfold replacement?
  rw [Text.word_append hs hrest, Text.afterWord_append hs hrest]
  cases hfunction : arrayFunctions.lookup s with
  | some function =>
      obtain ⟨a, ha, rfl⟩ := exists_aggregate hfunction
      simp [ha, arrayName?_eq, hfunction]
  | none =>
      rw [Option.map_none, ite_self]
      refine Option.bind_eq_none_iff.2 fun a _ => ?_
      split
      case isTrue h => rw [arrayName?_eq, h.1, hfunction, Option.map_none]
      case isFalse => rfl

theorem not_quote_of_isWordChar {c : Char} (h : isWordChar c = true) :
    ¬(c = '\'' ∨ c = '"') := by
  rw [← isQuote_iff, Script.isQuote_of_isWordChar h]
  exact Bool.false_ne_true

theorem isWordStart_of_not_isWordChar {c : Char} (h : isWordChar c = false) :
    isWordStart c = false := by
  cases hstart : isWordStart c with
  | false => rfl
  | true =>
      rw [Text.isWordChar_of_isWordStart hstart] at h
      cases h

/-- Which character stands in front matters to a word character only. -/
theorem renameFrom_of_endsWord (before before' : Option Char)
    (h : EndsWord rest) :
    renameFrom (.outside before) rest
      = renameFrom (.outside before') rest := by
  cases rest with
  | nil => rfl
  | cons c t =>
      have hstart : isWordStart c = false :=
        isWordStart_of_not_isWordChar (h c rfl)
      simp only [renameFrom, hstart, Bool.false_and, if_neg Bool.false_ne_true]

theorem renameFrom_mark {before : Option Char} {c : Char}
    (hquote : isQuote c = false) (hword : isWordChar c = false) {t : Text} :
    renameFrom (.outside before) (c :: t)
      = c :: renameFrom (.outside (some c)) t := by
  have hstart : isWordStart c = false := isWordStart_of_not_isWordChar hword
  have hnone : ¬(c = '\'' ∨ c = '"') := by
    rw [← isQuote_iff, hquote]
    exact Bool.false_ne_true
  rw [renameFrom, if_neg hnone, hstart, Bool.false_and,
    if_neg Bool.false_ne_true]

/-- A run that goes on with something is kept. -/
theorem renameFrom_kept {before : Option Char}
    (hs : ∀ c ∈ s, isWordChar c = true) (hrest : EndsWord rest)
    (hbefore : joinsName before = true) :
    renameFrom (.outside before) (s ++ rest)
      = s ++ renameFrom (.outside none) rest := by
  induction s generalizing before with
  | nil => exact renameFrom_of_endsWord before none hrest
  | cons c s ih =>
      obtain ⟨hc, hs⟩ := List.forall_mem_cons.1 hs
      have hquote := not_quote_of_isWordChar hc
      have hjoins : joinsName (some c) = true := by
        show (isWordChar c || c == '.') = true
        rw [hc, Bool.true_or]
      rw [List.cons_append, renameFrom, if_neg hquote, hbefore, Bool.not_true,
        Bool.and_false, if_neg Bool.false_ne_true, ih hs hjoins,
        List.cons_append]

theorem renameFrom_replaced (hrest : EndsWord rest) (c : Char) :
    renameFrom (.replaced s.length) (c :: (s ++ rest))
      = renameFrom (.outside none) rest := by
  induction s generalizing c with
  | nil => exact renameFrom_of_endsWord (some c) none hrest
  | cons d s ih => exact ih d

/-- What is left of a replaced name is passed over. -/
theorem renameFrom_afterFirst (hs : ∀ c ∈ s, isWordChar c = true)
    (hrest : EndsWord rest) (c : Char) :
    renameFrom (afterFirst c (Text.word (s ++ rest))) (s ++ rest)
      = renameFrom (.outside none) rest := by
  rw [Text.word_append hs hrest]
  cases s with
  | nil => exact renameFrom_of_endsWord (some c) none hrest
  | cons d s => exact renameFrom_replaced hrest d

/-- A run is replaced as a whole or not at all. -/
theorem renameFrom_run {before : Option Char}
    (hs : ∀ c ∈ s, isWordChar c = true) (hne : s ≠ [])
    (hrest : EndsWord rest) :
    renameFrom (.outside before) (s ++ rest)
      = ((if joinsName before = false ∧ rest.head? = some '(' then
        arrayFunctions.lookup s
          else
            none).map ("np.".toList ++ ·)).getD s
    ++ renameFrom (.outside none) rest := by
  cases hbefore : joinsName before with
  | true =>
      -- behind a point, or within a longer name, nothing is renamed
      rw [renameFrom_kept hs hrest hbefore]
      rfl
  | false =>
      obtain ⟨c, s, rfl⟩ := List.exists_cons_of_ne_nil hne
      obtain ⟨hc, htail⟩ := List.forall_mem_cons.1 hs
      have hreplacement := replacement?_append hs hrest
      have hkept : renameFrom (.outside (some c)) (s ++ rest)
          = s ++ renameFrom (.outside none) rest := by
        refine renameFrom_kept htail hrest ?_
        show (isWordChar c || c == '.') = true
        rw [hc, Bool.true_or]
      rw [List.cons_append] at hreplacement ⊢
      rw [renameFrom, if_neg (not_quote_of_isWordChar hc), hbefore,
        Bool.not_false, Bool.and_true]
      cases hstart : isWordStart c with
      | false =>
          -- no name begins with a digit
          have hnone : arrayFunctions.lookup (c :: s) = none := by
            refine Option.eq_none_iff_forall_ne_some.2 fun function h => ?_
            have hword := (isWord_of_lookup h).1
            rw [hstart] at hword
            cases hword
          rw [if_neg Bool.false_ne_true, hkept, hnone, ite_self]
          rfl
      | true =>
          rw [if_pos rfl, hreplacement]
          by_cases hcall : rest.head? = some '('
          · rw [if_pos hcall, if_pos ⟨rfl, hcall⟩]
            cases arrayFunctions.lookup (c :: s) with
            | some function =>
                exact congrArg (("np.".toList ++ function) ++ ·)
                  (renameFrom_afterFirst htail hrest c)
            | none => exact congrArg (c :: ·) hkept
          · rw [if_neg hcall, if_neg fun h => hcall h.2]
            exact congrArg (c :: ·) hkept

/-- The inside of a literal is kept. -/
theorem renameFrom_inner {quote : Char} (hslash : quote ≠ '\\') {inner : Text}
    (h : Inner quote inner) (t : Text) :
    renameFrom (.inside quote) (inner ++ quote :: t)
      = inner ++ quote :: renameFrom (.outside (some quote)) t := by
  induction h with
  | nil =>
      rw [List.nil_append, renameFrom, if_neg hslash, if_pos rfl]
      rfl
  | plain hc hquote _ ih =>
      rw [List.cons_append, renameFrom, if_neg hc, if_neg hquote, ih]
      rfl
  | escape c _ ih =>
      rw [List.cons_append, List.cons_append, renameFrom, if_pos rfl,
        renameFrom, ih]
      rfl

theorem renameFrom_unclosed {quote : Char} {t : Text} (h : Unclosed quote t) :
    renameFrom (.inside quote) t = t := by
  induction h with
  | nil => rfl
  | slash => rfl
  | plain hc hquote _ ih => rw [renameFrom, if_neg hc, if_neg hquote, ih]
  | escape c _ ih => rw [renameFrom, if_pos rfl, renameFrom, ih]

end Passing

theorem function?_run (before next : Option Part) (s : Text) :
    function? before next (.run s)
      = if before ≠ some (.mark '.') ∧ next = some (.mark '(') then
      arrayFunctions.lookup s else none := rfl

theorem renamed_cons_of_none {before : Option Part} {p : Part} {ps : List Part}
    (h : function? before ps.head? p = none) :
    renamed before (p :: ps) = p :: renamed (some p) ps := by
  rw [renamed, h]
  rfl

theorem renamed_cons_of_some {before : Option Part} {p : Part} {ps : List Part}
    {function : Text} (h : function? before ps.head? p = some function) :
    renamed before (p :: ps)
      = .run "np".toList :: .mark '.' :: .run function
        :: renamed (some p) ps := by
  rw [renamed, h]
  rfl

theorem sourceOfParts_function (function : Text) (ps : List Part) :
    sourceOfParts (.run "np".toList :: .mark '.' :: .run function :: ps)
      = "np.".toList ++ function ++ sourceOfParts ps := by
  simp [sourceOfParts, Part.source]

theorem joinsName_of_isQuote {quote : Char} (h : isQuote quote = true) :
    joinsName (some quote) = false := by
  rcases isQuote_iff.1 h with rfl | rfl <;> rfl

theorem joinsName_mark {c : Char} (h : isWordChar c = false) :
    joinsName (some c) = true ↔ c = '.' := by
  show (isWordChar c || c == '.') = true ↔ _
  rw [h, Bool.false_or, beq_iff_eq]

/-- Passing a text renames its parts. Of what stands in front it has to be
known only whether it is a point, and only if a run comes next. -/
theorem renameFrom_source {ps : List Part} (h : Parted ps)
    {before : Option Char} {part : Option Part}
    (hbefore : (∃ s, ps.head? = some (.run s)) →
      (joinsName before = true ↔ part = some (.mark '.'))) :
    renameFrom (.outside before) (sourceOfParts ps)
      = sourceOfParts (renamed part ps) := by
  induction ps generalizing before part with
  | nil => rfl
  | cons p ps ih =>
      obtain ⟨hformed, hmeets, hparts⟩ := h
      cases p with
      | literal quote inner =>
          have hnext : renameFrom (.outside (some quote)) (sourceOfParts ps)
              = sourceOfParts (renamed (some (.literal quote inner)) ps) := by
            refine ih hparts fun _ => ?_
            rw [joinsName_of_isQuote hformed.1]
            exact iff_of_false Bool.false_ne_true fun h => by cases h
          rw [renamed_cons_of_none rfl, sourceOfParts_literal,
            sourceOfParts_literal, renameFrom,
            if_pos (isQuote_iff.1 hformed.1),
            renameFrom_inner (Script.isQuote_ne_backslash hformed.1) hformed.2,
            hnext]
      | unclosed quote rest =>
          have hlast : ps = [] := List.head?_eq_none_iff.1 hmeets
          subst hlast
          show renameFrom (.outside before) (quote :: (rest ++ []))
              = quote :: (rest ++ [])
          rw [List.append_nil, renameFrom, if_pos (isQuote_iff.1 hformed.1),
            renameFrom_unclosed hformed.2]
      | run s =>
          -- no run follows a run
          have hnext : renameFrom (.outside none) (sourceOfParts ps)
              = sourceOfParts (renamed (some (.run s)) ps) :=
            ih hparts fun ⟨s', hs'⟩ => absurd hs' (hmeets s')
          have hfunction :
              (if joinsName before = false
                  ∧ (sourceOfParts ps).head? = some '(' then
                arrayFunctions.lookup s else none)
                = function? part ps.head? (.run s) := by
            have hjoins : joinsName before = false
                ↔ part ≠ some (.mark '.') := by
              rw [← Bool.not_eq_true]
              exact not_congr (hbefore ⟨s, rfl⟩)
            have hcall : (sourceOfParts ps).head? = some '('
                ↔ ps.head? = some (.mark '(') :=
              hparts.head?_eq_mark (by decide) (by decide)
            simp only [function?_run, hjoins, hcall]
          rw [sourceOfParts_cons]
          refine (renameFrom_run hformed.2 hformed.1
            (hparts.endsWord_iff.2 hmeets)).trans ?_
          rw [hfunction, hnext]
          cases hf : function? part ps.head? (.run s) with
          | none =>
              rw [renamed_cons_of_none hf, sourceOfParts_cons]
              rfl
          | some function =>
              rw [renamed_cons_of_some hf, sourceOfParts_function]
              rfl
      | mark c =>
          have hnext : renameFrom (.outside (some c)) (sourceOfParts ps)
              = sourceOfParts (renamed (some (.mark c)) ps) := by
            refine ih hparts fun _ => ?_
            rw [joinsName_mark hformed.2]
            exact ⟨fun h => by rw [h], fun h => by
              injection h with h
              injection h⟩
          rw [renamed_cons_of_none rfl, sourceOfParts_cons,
            sourceOfParts_cons, ← hnext]
          exact renameFrom_mark hformed.1 hformed.2

-- ============================================================ renamed parts

section Renamed

variable {before : Option Part} {p : Part} {ps : List Part} {function : Text}

theorem function?_eq_some {next : Option Part}
    (h : function? before next p = some function) :
    ∃ s, p = .run s ∧ next = some (.mark '(')
      ∧ arrayFunctions.lookup s = some function := by
  cases p with
  | run s =>
      rw [function?_run] at h
      split at h
      case isTrue hcall => exact ⟨s, rfl, hcall.2, h⟩
      case isFalse => cases h
  | _ => cases h

/-- Of the parts beside a part only the marks of a name count. -/
theorem function?_congr {before' next next' : Option Part}
    (hbefore : before = some (.mark '.') ↔ before' = some (.mark '.'))
    (hnext : next = some (.mark '(') ↔ next' = some (.mark '(')) :
    function? before next p = function? before' next' p := by
  cases p with
  | run s => simp only [function?_run, ne_eq, hbefore, hnext]
  | _ => rfl

/-- The first part stays, or is a run as it was before. -/
theorem head?_renamed (before : Option Part) (ps : List Part) :
    (renamed before ps).head? = ps.head?
      ∨ ∃ s s', ps.head? = some (.run s)
        ∧ (renamed before ps).head? = some (.run s') := by
  cases ps with
  | nil => exact Or.inl rfl
  | cons p ps =>
      cases hf : function? before ps.head? p with
      | none =>
          rw [renamed_cons_of_none hf]
          exact Or.inl rfl
      | some function =>
          obtain ⟨s, rfl, -⟩ := function?_eq_some hf
          rw [renamed_cons_of_some hf]
          exact Or.inr ⟨s, _, rfl, rfl⟩

theorem head?_renamed_eq_mark {c : Char} :
    (renamed before ps).head? = some (.mark c)
      ↔ ps.head? = some (.mark c) := by
  rcases head?_renamed before ps with h | ⟨s, s', h, h'⟩
  · rw [h]
  · rw [h, h']
    exact iff_of_false (fun h => by cases h) fun h => by cases h

theorem Part.Meets.renamed (h : p.Meets ps.head?) :
    p.Meets (renamed before ps).head? := by
  rcases head?_renamed before ps with heq | ⟨s, s', heq, heq'⟩
  · rw [heq]
    exact h
  · rw [heq] at h
    rw [heq']
    cases p with
    | run t => exact absurd rfl (h s)
    | unclosed quote rest => cases h
    | _ => exact trivial

/-- The parts of the renamed text are those that are put together. -/
theorem Parted.renamed (h : Parted ps) : Parted (renamed before ps) := by
  induction ps generalizing before with
  | nil => exact trivial
  | cons p ps ih =>
      obtain ⟨hformed, hmeets, hparts⟩ := h
      cases hf : function? before ps.head? p with
      | none =>
          rw [renamed_cons_of_none hf]
          exact ⟨hformed, hmeets.renamed, ih hparts⟩
      | some function =>
          obtain ⟨s, rfl, hcall, hfunction⟩ := function?_eq_some hf
          -- the word becomes three parts: the module, a point and the function
          have hword := (function_facts hfunction).1
          have hnext : (Formula.renamed (some (.run s)) ps).head?
              = some (.mark '(') :=
            head?_renamed_eq_mark.2 hcall
          have hmodule : Text.IsWord "np".toList := by decide
          rw [renamed_cons_of_some hf]
          refine ⟨⟨hmodule.ne_nil, hmodule.isWordChar⟩, fun t ht => ?_,
            ⟨by decide, by decide⟩, trivial, ⟨hword.ne_nil, hword.isWordChar⟩,
            fun t ht => ?_, ih hparts⟩
          · cases ht
          · rw [hnext] at ht
            cases ht

theorem filter_isLiteral_renamed :
    (renamed before ps).filter Part.isLiteral = ps.filter Part.isLiteral := by
  induction ps generalizing before with
  | nil => rfl
  | cons p ps ih =>
      cases hf : function? before ps.head? p with
      | none =>
          rw [renamed_cons_of_none hf, List.filter_cons, List.filter_cons, ih]
      | some function =>
          obtain ⟨s, rfl, -⟩ := function?_eq_some hf
          rw [renamed_cons_of_some hf]
          exact ih

theorem renamed_congr {before' : Option Part}
    (h : before = some (.mark '.') ↔ before' = some (.mark '.')) :
    renamed before ps = renamed before' ps := by
  cases ps with
  | nil => rfl
  | cons p ps => rw [renamed, renamed, function?_congr h Iff.rfl]

/-- No name is left to replace. -/
theorem renamed_renamed :
    renamed before (renamed before ps) = renamed before ps := by
  induction ps generalizing before with
  | nil => rfl
  | cons p ps ih =>
      cases hf : function? before ps.head? p with
      | none =>
          rw [renamed_cons_of_none hf, renamed_cons_of_none, ih]
          rw [function?_congr Iff.rfl head?_renamed_eq_mark, hf]
      | some function =>
          obtain ⟨s, rfl, -, -⟩ := function?_eq_some hf
          rw [renamed_cons_of_some hf]
          -- what follows depends only on whether a point stands in front of it
          have hrest : renamed (some (.run function))
              (renamed (some (.run s)) ps)
              = renamed (some (.run s)) ps := by
            refine (renamed_congr (iff_of_false ?_ ?_)).trans
              (ih : renamed (some (.run s)) _ = _)
            · exact fun h => by cases h
            · exact fun h => by cases h
          -- the first word is not called, and the second has a point in front
          have hfirst : function? before (some (.mark '.')) (.run "np".toList)
              = none :=
            if_neg fun h => by cases h.2
          have hsecond : ∀ next,
              function? (some (.mark '.')) next (.run function) = none := by
            intro next
            rw [function?_run]
            exact if_neg fun h => h.1 rfl
          rw [renamed_cons_of_none hfirst, renamed_cons_of_none rfl,
            renamed_cons_of_none (hsecond _), hrest]

end Renamed

theorem fallbackText_sourceOfParts {ps : List Part} (h : Parted ps) :
    fallbackText (sourceOfParts ps) = sourceOfParts (renamed none ps) :=
  renameFrom_source h fun _ => iff_of_false Bool.false_ne_true fun h => by
    cases h

/-- A formula is taken apart in one way. The text for the evaluator is put
together of the same parts, but each run that names an aggregate, has no
point in front and has an opening parenthesis right behind is replaced by
the function's name. It has the same literals, and the text for the
evaluator of this text is the text itself. -/
theorem fallbackText_renames (e : Text) :
    ∃ ps, (∀ ps', Parted ps' ∧ sourceOfParts ps' = e ↔ ps' = ps)
      ∧ fallbackText e = sourceOfParts (renamed none ps)
      ∧ Parted (renamed none ps)
      ∧ (renamed none ps).filter Part.isLiteral = ps.filter Part.isLiteral
      ∧ fallbackText (fallbackText e) = fallbackText e := by
  obtain ⟨ps, hparted, rfl⟩ := exists_parted e
  have htext := fallbackText_sourceOfParts hparted
  refine ⟨ps, fun ps' => ⟨fun h => h.1.unique hparted h.2, ?_⟩, htext,
    hparted.renamed, filter_isLiteral_renamed, ?_⟩
  · rintro rfl
    exact ⟨hparted, rfl⟩
  · rw [htext, fallbackText_sourceOfParts hparted.renamed, renamed_renamed]

example : fallbackText "SUM(A0) + t.MAX(1) + 'MIN(\\''".toList
    = "np.sum(A0) + t.MAX(1) + 'MIN(\\''".toList := by decide

end GridScript.Formula
