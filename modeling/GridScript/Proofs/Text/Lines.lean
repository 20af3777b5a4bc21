/-
Texts and their lines: the cut of a text into pieces is undone by joining
them, and a joint at a line feed is a joint of the pieces too. Everything
that reads a script back after it was written goes through here.

# The shape of an argument about pieces

`Text.pieces` is a right fold over characters, which no statement about
lines can use as it stands. `line_cases` is the view that replaces it: a
text is one line without a feed, or a line, a feed and a shorter text.
Each law below is an induction along that view (`line_induction`), with
`pieces_line` as the equation of its step.
-/
import GridScript.Text.Blank

namespace GridScript.Text

-- ====================================================== unbroken texts

/-- No line break of either kind occurs in the text. -/
def Unbroken (t : Text) : Prop := '\n' ∉ t ∧ '\r' ∉ t

instance (t : Text) : Decidable (Unbroken t) :=
  inferInstanceAs (Decidable ('\n' ∉ t ∧ '\r' ∉ t))

theorem unbroken_nil : Unbroken [] := ⟨by simp, by simp⟩

/-- A text is unbroken exactly when both of its parts are. -/
@[simp] theorem unbroken_append {a b : Text} :
    Unbroken (a ++ b) ↔ Unbroken a ∧ Unbroken b := by
  unfold Unbroken
  simp only [List.mem_append, not_or]
  constructor
  · rintro ⟨⟨h1, h2⟩, h3, h4⟩
    exact ⟨⟨h1, h3⟩, h2, h4⟩
  · rintro ⟨⟨h1, h3⟩, h2, h4⟩
    exact ⟨⟨h1, h2⟩, h3, h4⟩

@[simp] theorem unbroken_cons {c : Char} {t : Text} :
    Unbroken (c :: t) ↔ (c ≠ '\n' ∧ c ≠ '\r') ∧ Unbroken t := by
  unfold Unbroken
  simp only [List.mem_cons, not_or, ne_eq, eq_comm (a := c)]
  constructor
  · rintro ⟨⟨h1, h2⟩, h3, h4⟩
    exact ⟨⟨h1, h3⟩, h2, h4⟩
  · rintro ⟨⟨h1, h3⟩, h2, h4⟩
    exact ⟨⟨h1, h2⟩, h3, h4⟩

/-- What a text is made of decides: a sub-list of an unbroken text is
unbroken. -/
theorem Unbroken.of_subset {a b : Text} (h : Unbroken b) (hsub : a ⊆ b) :
    Unbroken a :=
  ⟨fun hn => h.1 (hsub hn), fun hr => h.2 (hsub hr)⟩

/-- A text each of whose characters is told apart from the two breaks. -/
theorem unbroken_of_forall {t : Text} {p : Char → Bool}
    (h : ∀ c ∈ t, p c = true) (hn : p '\n' = false) (hr : p '\r' = false) :
    Unbroken t := by
  constructor
  · intro hmem
    rw [h _ hmem] at hn
    cases hn
  · intro hmem
    rw [h _ hmem] at hr
    cases hr

-- ================================================== the line-wise view

/-- A text is one line without a feed, or a line, a feed and a rest. -/
theorem line_cases (t : Text) :
    '\n' ∉ t ∨ ∃ l rest, '\n' ∉ l ∧ t = l ++ '\n' :: rest := by
  induction t with
  | nil => exact Or.inl (by simp)
  | cons c t ih =>
      by_cases hc : c = '\n'
      · exact Or.inr ⟨[], t, by simp, by rw [hc]; rfl⟩
      · have hne : '\n' ≠ c := fun h => hc h.symm
        rcases ih with hno | ⟨l, rest, hl, rfl⟩
        · exact Or.inl (by simp [hne, hno])
        · exact Or.inr ⟨c :: l, rest, by simp [hne, hl], rfl⟩

/-- Induction along the lines of a text. -/
theorem line_induction {P : Text → Prop} (last : ∀ t, '\n' ∉ t → P t)
    (line : ∀ l rest, '\n' ∉ l → P rest → P (l ++ '\n' :: rest)) (t : Text) :
    P t := by
  rcases line_cases t with hno | ⟨l, rest, hl, ht⟩
  · exact last t hno
  · rw [ht]
    exact line l rest hl (line_induction last line rest)
termination_by t.length
decreasing_by rw [ht, List.length_append, List.length_cons]; omega

/-- The pieces of the text without characters. -/
@[simp] theorem pieces_nil : pieces [] = [] := rfl

/-- A text without a feed is one piece. -/
theorem pieces_of_no_feed {t : Text} (h : '\n' ∉ t) (hne : t ≠ []) :
    pieces t = [t] := by
  induction t with
  | nil => exact absurd rfl hne
  | cons c t ih =>
      have hc : c ≠ '\n' := fun hc => h (by simp [hc])
      have ht : '\n' ∉ t := fun ht => h (List.mem_cons_of_mem c ht)
      rw [pieces, List.foldr_cons, ← pieces, if_neg hc]
      by_cases hnil : t = []
      · rw [hnil]; rfl
      · rw [ih ht hnil]; rfl

/-- A line with its feed is the first piece of what it begins. -/
theorem pieces_line {l : Text} (h : '\n' ∉ l) (rest : Text) :
    pieces (l ++ '\n' :: rest) = (l ++ ['\n']) :: pieces rest := by
  induction l with
  | nil =>
      rw [List.nil_append, pieces, List.foldr_cons, ← pieces, if_pos rfl]; rfl
  | cons c l ih =>
      have hc : c ≠ '\n' := fun hc => h (by simp [hc])
      have hl : '\n' ∉ l := fun hl => h (List.mem_cons_of_mem c hl)
      rw [List.cons_append, pieces, List.foldr_cons, ← pieces,
        if_neg hc, ih hl]
      rfl

-- ======================================================== closed texts

/-- Does the text end where a line does? -/
def EndsLine (t : Text) : Prop := t = [] ∨ t.getLast? = some '\n'

theorem closed_of_endsLine {t : Text} (h : EndsLine t) : closed t = t := by
  unfold closed
  rcases h with rfl | h
  · rfl
  · simp [h]

theorem endsLine_closed (t : Text) : EndsLine (closed t) := by
  unfold closed
  split
  next h =>
      simp only [Bool.or_eq_true, List.isEmpty_iff, beq_iff_eq] at h
      exact h
  next => exact Or.inr (by simp)

/-- Closing a text adds one feed or nothing. -/
theorem closed_cases (t : Text) :
    closed t = t
      ∨ (t ≠ [] ∧ t.getLast? ≠ some '\n' ∧ closed t = t ++ ['\n']) := by
  by_cases h : EndsLine t
  · exact Or.inl (closed_of_endsLine h)
  · unfold EndsLine at h
    rw [not_or] at h
    right
    refine ⟨h.1, h.2, ?_⟩
    unfold closed
    rw [if_neg (by simpa using h)]

/-- A closed text with anything in it has a feed at its end. -/
theorem getLast?_closed {t : Text} (h : t ≠ []) :
    (closed t).getLast? = some '\n' := by
  rcases closed_cases t with hsame | ⟨-, -, hfeed⟩
  · exact (endsLine_closed t).resolve_left fun hnil =>
      h (hsame.symm.trans hnil)
  · rw [hfeed, List.getLast?_concat]

/-- Closing a text twice is closing it once. -/
@[simp] theorem closed_closed (t : Text) : closed (closed t) = closed t :=
  closed_of_endsLine (endsLine_closed t)

/-- A last line without a feed is given one. -/
theorem closed_of_no_feed {t : Text} (h : '\n' ∉ t) (hne : t ≠ []) :
    closed t = t ++ ['\n'] := by
  have hlast : t.getLast? ≠ some '\n' := fun hl => h (List.mem_of_getLast? hl)
  unfold closed
  simp [hne, hlast]

/-- What stands behind a feed is closed by itself. -/
theorem closed_line (l rest : Text) :
    closed (l ++ '\n' :: rest) = l ++ '\n' :: closed rest := by
  unfold closed
  cases rest with
  | nil => simp
  | cons c rest =>
      have hlast : (l ++ '\n' :: c :: rest).getLast?
          = (c :: rest).getLast? := by
        rw [List.getLast?_append, List.getLast?_cons_cons, List.getLast?_cons]
        rfl
      rw [hlast]
      by_cases hend : (c :: rest).getLast? = some '\n' <;> simp [hend]

/-- What a closed text begins with one line begins: a closed text is empty
or a line, its feed and a closed text. -/
theorem EndsLine.tail {l rest : Text} (h : EndsLine (l ++ '\n' :: rest)) :
    EndsLine rest := by
  unfold EndsLine at h ⊢
  cases rest with
  | nil => exact Or.inl rfl
  | cons c rest =>
      right
      rcases h with h | h
      · simp at h
      · simpa [List.getLast?_append, List.getLast?_cons_cons] using h

theorem EndsLine.line {rest : Text} (h : EndsLine rest) (l : Text) :
    EndsLine (l ++ '\n' :: rest) := by
  rw [← closed_of_endsLine h, ← closed_line]
  exact endsLine_closed _

/-- A text without a feed is closed only if it is empty. -/
theorem EndsLine.eq_nil {t : Text} (h : EndsLine t) (hno : '\n' ∉ t) :
    t = [] := by
  rcases h with h | h
  · exact h
  · exact absurd (List.mem_of_getLast? h) hno

/-- A closed text ends a line, so the pieces of what stands behind it are
pieces of both. -/
theorem pieces_append {a : Text} (h : EndsLine a) (b : Text) :
    pieces (a ++ b) = pieces a ++ pieces b := by
  induction a using line_induction with
  | last a hno =>
      rw [h.eq_nil hno, List.nil_append, pieces_nil, List.nil_append]
  | line l rest hl ih =>
      rw [List.append_assoc, List.cons_append, pieces_line hl, pieces_line hl,
        ih h.tail, List.cons_append]

theorem lines_append {a : Text} (h : EndsLine a) (b : Text) :
    lines (a ++ b) = lines a ++ lines b := by
  unfold lines
  rw [pieces_append h, List.map_append]

theorem EndsLine.append {a b : Text} (ha : EndsLine a) (hb : EndsLine b) :
    EndsLine (a ++ b) := by
  induction a using line_induction with
  | last a hno => rwa [ha.eq_nil hno, List.nil_append]
  | line l rest hl ih =>
      rw [List.append_assoc, List.cons_append]
      exact (ih ha.tail).line l

-- ========================================================== line texts

@[simp] theorem unlines_nil : unlines [] = [] := rfl

@[simp] theorem unlines_cons (l : Text) (ls : List Text) :
    unlines (l :: ls) = l ++ '\n' :: unlines ls := by
  simp [unlines]

theorem endsLine_unlines (ls : List Text) : EndsLine (unlines ls) := by
  induction ls with
  | nil => exact Or.inl rfl
  | cons l ls ih =>
      rw [unlines_cons]
      exact ih.line l

/-- The pieces of written lines are the lines with their feeds. -/
theorem pieces_unlines {ls : List Text} (h : ∀ l ∈ ls, '\n' ∉ l) :
    pieces (unlines ls) = ls.map (· ++ ['\n']) := by
  induction ls with
  | nil => rfl
  | cons l ls ih =>
      rw [unlines_cons, pieces_line (h l List.mem_cons_self),
        ih fun m hm => h m (List.mem_cons_of_mem l hm)]
      rfl

theorem beforeLast?_snoc (c : Char) (t : Text) :
    beforeLast? c (t ++ [c]) = some t := by
  simp [beforeLast?]

theorem eq_of_beforeLast? {c : Char} {t before : Text}
    (h : beforeLast? c t = some before) :
    t = before ++ [c] := by
  unfold beforeLast? at h
  split at h
  case isFalse => cases h
  case isTrue hlast =>
      obtain ⟨rest, rfl⟩ := List.getLast?_eq_some_iff.1 hlast
      rw [List.dropLast_concat] at h
      rw [Option.some.inj h]

/-- A character that does not occur is not dropped. -/
theorem dropLast_of_ne {c : Char} {t : Text} (h : t.getLast? ≠ some c) :
    dropLast c t = t := by
  unfold dropLast beforeLast?
  rw [if_neg h]
  rfl

theorem dropLast_of_not_mem {c : Char} {t : Text} (h : c ∉ t) :
    dropLast c t = t :=
  dropLast_of_ne fun hlast => h (List.mem_of_getLast? hlast)

theorem dropLast_snoc (c : Char) (t : Text) : dropLast c (t ++ [c]) = t := by
  unfold dropLast
  rw [beforeLast?_snoc]
  rfl

theorem dropLast_cases (c : Char) (t : Text) :
    dropLast c t = t ∨ ∃ rest, t = rest ++ [c] ∧ dropLast c t = rest := by
  by_cases h : t.getLast? = some c
  · obtain ⟨rest, rfl⟩ := List.getLast?_eq_some_iff.1 h
    exact Or.inr ⟨rest, rfl, dropLast_snoc c rest⟩
  · exact Or.inl (dropLast_of_ne h)

/-- The lines of a text by its first line: a carriage return in front of the
feed is dropped. -/
theorem lines_line {l : Text} (h : '\n' ∉ l) (rest : Text) :
    lines (l ++ '\n' :: rest) = dropLast '\r' l :: lines rest := by
  unfold lines
  rw [pieces_line h, List.map_cons, unterminated, beforeLast?_snoc]

/-- A line without a feed keeps a carriage return at its end. -/
theorem lines_of_no_feed {t : Text} (h : '\n' ∉ t) (hne : t ≠ []) :
    lines t = [t] := by
  have hlast : t.getLast? ≠ some '\n' := fun hl => h (List.mem_of_getLast? hl)
  unfold lines
  rw [pieces_of_no_feed h hne, List.map_singleton, unterminated, beforeLast?,
    if_neg hlast]

/-- Unbroken lines that are written are read back as they were. -/
theorem lines_unlines {ls : List Text} (h : ∀ l ∈ ls, Unbroken l) :
    lines (unlines ls) = ls := by
  have hstep : ∀ l ∈ ls, (unterminated ∘ (· ++ ['\n'])) l = l := by
    intro l hl
    show unterminated (l ++ ['\n']) = l
    unfold unterminated
    rw [beforeLast?_snoc]
    exact dropLast_of_not_mem (h l hl).2
  rw [lines, pieces_unlines fun l hl => (h l hl).1, List.map_map,
    List.map_congr_left hstep, List.map_id']

end GridScript.Text
