/-
Blanks at the ends of a text. A trimmed text is a fixed point of every
trim, and it is recognised by its first and its last character alone.

A text is what `trimEnd` leaves of it followed by blanks, and that is all
that is ever used of the definition's fold: the laws below are the two
equations `trimEnd_snoc_blank` and `trimEnd_snoc`, read from the end of
the text.
-/
import GridScript.Text.Blank

namespace GridScript.Text

-- ========================================================= blank texts

@[simp] theorem allBlank_nil : allBlank [] = true := rfl

@[simp] theorem allBlank_cons (c : Char) (t : Text) :
    allBlank (c :: t) = (isBlank c && allBlank t) := rfl

@[simp] theorem allBlank_append (a b : Text) :
    allBlank (a ++ b) = (allBlank a && allBlank b) := by
  simp [allBlank]

theorem allBlank_iff {t : Text} :
    allBlank t = true ↔ ∀ c ∈ t, isBlank c = true := by
  simp [allBlank]

-- ============================================================== the end

@[simp] theorem trimEnd_nil : trimEnd [] = [] := rfl

theorem trimEnd_cons (c : Char) (t : Text) :
    trimEnd (c :: t) = if (trimEnd t).isEmpty && isBlank c then []
      else c :: trimEnd t := rfl

/-- Nothing is left exactly of a blank text. -/
theorem trimEnd_eq_nil_iff {t : Text} :
    trimEnd t = [] ↔ allBlank t = true := by
  induction t with
  | nil => simp
  | cons c t ih =>
      rw [trimEnd_cons, allBlank_cons]
      by_cases hc : isBlank c = true
      · by_cases ht : trimEnd t = []
        · simp [hc, ht, ih.1 ht]
        · have hb : allBlank t ≠ true := fun h => ht (ih.2 h)
          simp [hc, ht, hb]
      · simp [hc]

/-- A text ending in something to keep is kept up to there. -/
theorem trimEnd_append {a b : Text} :
    trimEnd (a ++ b) = if allBlank b then trimEnd a else a ++ trimEnd b := by
  induction a with
  | nil =>
      cases hb : allBlank b with
      | true => simpa using trimEnd_eq_nil_iff.2 hb
      | false => simp
  | cons c a ih =>
      rw [List.cons_append, trimEnd_cons, ih]
      cases hb : allBlank b with
      | true =>
          simp only [if_true]
          rw [trimEnd_cons]
      | false =>
          have hne : trimEnd b ≠ [] := fun h => by
            rw [trimEnd_eq_nil_iff.1 h] at hb
            cases hb
          simp [hne]

/-- Blanks at the end go. -/
theorem trimEnd_append_blank {a b : Text} (hb : allBlank b = true) :
    trimEnd (a ++ b) = trimEnd a := by
  rw [trimEnd_append, if_pos hb]

/-- A last character that is no blank stays, and all before it. -/
theorem trimEnd_snoc {c : Char} (h : isBlank c = false) (t : Text) :
    trimEnd (t ++ [c]) = t ++ [c] := by
  rw [trimEnd_append]
  simp [trimEnd_cons, h]

theorem trimEnd_of_getLast {c : Char} {t : Text} (hlast : t.getLast? = some c)
    (h : isBlank c = false) : trimEnd t = t := by
  obtain ⟨a, rfl⟩ : ∃ a, t = a ++ [c] := List.getLast?_eq_some_iff.1 hlast
  exact trimEnd_snoc h a

/-- A text is what is left of it, and blanks. -/
theorem exists_blank_end (t : Text) :
    ∃ b, allBlank b = true ∧ t = trimEnd t ++ b := by
  induction t with
  | nil => exact ⟨[], rfl, rfl⟩
  | cons c t ih =>
      obtain ⟨b, hb, ht⟩ := ih
      rw [trimEnd_cons]
      split
      next h =>
          simp only [Bool.and_eq_true, List.isEmpty_iff] at h
          refine ⟨c :: t, ?_, rfl⟩
          rw [allBlank_cons, h.2, trimEnd_eq_nil_iff.1 h.1]
          rfl
      next => exact ⟨b, hb, by rw [List.cons_append, ← ht]⟩

/-- What is left of a text occurs in it. -/
theorem trimEnd_subset (t : Text) : trimEnd t ⊆ t := by
  obtain ⟨b, -, ht⟩ := exists_blank_end t
  intro c hc
  rw [ht]
  exact List.mem_append_left b hc

/-- What is left of a text does not end in a blank. -/
theorem isBlank_getLast_trimEnd {c : Char} {t : Text}
    (h : (trimEnd t).getLast? = some c) :
    isBlank c = false := by
  induction t with
  | nil => cases h
  | cons d t ih =>
      rw [trimEnd_cons] at h
      split at h
      next => cases h
      next hkeep =>
          cases ht : trimEnd t with
          | nil =>
              rw [ht] at h hkeep
              simp only [List.isEmpty_nil, Bool.true_and,
                Bool.not_eq_true] at hkeep
              simp only [List.getLast?_singleton, Option.some.injEq] at h
              rw [← h]
              exact hkeep
          | cons e s =>
              rw [ht, List.getLast?_cons_cons, ← ht] at h
              exact ih h

@[simp] theorem trimEnd_trimEnd (t : Text) :
    trimEnd (trimEnd t) = trimEnd t := by
  cases hlast : (trimEnd t).getLast? with
  | none =>
      rw [List.getLast?_eq_none_iff.1 hlast]
      rfl
  | some c => exact trimEnd_of_getLast hlast (isBlank_getLast_trimEnd hlast)

-- ========================================================= both ends

/-- A text that begins with no blank keeps its beginning. -/
theorem trimStart_of_head {c : Char} {t : Text} (h : isBlank c = false) :
    trimStart (c :: t) = c :: t := by
  unfold trimStart
  rw [List.dropWhile_cons_of_neg]
  simp [h]

/-- A text that begins with no blank is trimmed at its end only. -/
theorem trim_of_head {c : Char} {t : Text} (h : isBlank c = false) :
    trim (c :: t) = trimEnd (c :: t) := by
  unfold trim
  rw [trimStart_of_head h]

/-- What is trimmed does not begin with a blank. -/
theorem isBlank_head_trimStart {c : Char} {t rest : Text}
    (h : trimStart t = c :: rest) :
    isBlank c = false := by
  unfold trimStart at h
  have hne : t.dropWhile isBlank ≠ [] := by
    rw [h]
    simp
  have hhead := List.head_dropWhile_not isBlank hne
  simpa only [h, List.head_cons] using hhead

theorem trimStart_subset (t : Text) : trimStart t ⊆ t :=
  List.dropWhile_subset isBlank

theorem trim_subset (t : Text) : trim t ⊆ t :=
  fun _ hc => trimStart_subset t (trimEnd_subset _ hc)

/-- What is trimmed begins with no blank, if anything is left. -/
theorem isBlank_head_trim {c : Char} {t rest : Text} (h : trim t = c :: rest) :
    isBlank c = false := by
  obtain ⟨b, -, hb⟩ := exists_blank_end (trimStart t)
  rw [trim] at h
  rw [h] at hb
  exact isBlank_head_trimStart hb

/-- What is trimmed ends in no blank. -/
theorem isBlank_getLast_trim {c : Char} {t : Text}
    (h : (trim t).getLast? = some c) :
    isBlank c = false := isBlank_getLast_trimEnd h

@[simp] theorem trim_trim (t : Text) : trim (trim t) = trim t := by
  cases htrim : trim t with
  | nil => rfl
  | cons c rest =>
      rw [trim_of_head (isBlank_head_trim htrim), ← htrim]
      exact trimEnd_trimEnd (trimStart t)

end GridScript.Text
