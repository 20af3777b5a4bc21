/-
Texts that are cut, at a separator or where a run of characters ends. The
parts have no separator in them, and parts that have none are what their
joint is cut into again. A run is cut off again if what follows does not
prolong it.
-/
import GridScript.Text.Basic

namespace GridScript.Text

variable {sep : Char} {t a b : Text}

-- ================================================================== runs

section Runs

variable {p : Char → Bool} (ha : ∀ c ∈ a, p c = true)
  (hb : ∀ c ∈ b.head?, p c = false)
include ha hb

theorem takeWhile_run : (a ++ b).takeWhile p = a := by
  rw [List.takeWhile_append_of_pos ha]
  cases b with
  | nil => exact List.append_nil a
  | cons c b =>
      rw [List.takeWhile_cons_of_neg (by simp [hb c rfl]), List.append_nil]

theorem dropWhile_run : (a ++ b).dropWhile p = b := by
  rw [List.dropWhile_append_of_pos ha]
  cases b with
  | nil => rfl
  | cons c b => exact List.dropWhile_cons_of_neg (by simp [hb c rfl])

end Runs

/-- What follows a run does not prolong it. -/
theorem head?_dropWhile (p : Char → Bool) (t : Text) :
    ∀ c ∈ (t.dropWhile p).head?, p c = false := by
  intro c hc
  have hhead := List.head?_dropWhile_not p t
  rw [Option.mem_def.1 hc] at hhead
  exact hhead

-- ============================================================ all parts

/-- Up to the first separator it is one part. -/
theorem splitOn_append (h : sep ∉ a) (b : Text) :
    splitOn sep (a ++ sep :: b) = a :: splitOn sep b := by
  induction a with
  | nil =>
      rw [List.nil_append, splitOn, List.foldr_cons, if_pos rfl]
      rfl
  | cons c a ih =>
      rw [List.cons_append, splitOn, List.foldr_cons, ← splitOn,
        if_neg (List.ne_of_not_mem_cons h).symm,
        ih (List.not_mem_of_not_mem_cons h)]
      rfl

/-- A text without the separator has one part. -/
theorem splitOn_of_not_mem (h : sep ∉ t) : splitOn sep t = [t] := by
  induction t with
  | nil => rfl
  | cons c t ih =>
      rw [splitOn, List.foldr_cons, ← splitOn,
        if_neg (List.ne_of_not_mem_cons h).symm,
        ih (List.not_mem_of_not_mem_cons h)]
      rfl

theorem splitOn_joinWith {parts : List Text} (hne : parts ≠ [])
    (h : ∀ part ∈ parts, sep ∉ part) :
    splitOn sep (joinWith [sep] parts) = parts := by
  induction parts with
  | nil => exact absurd rfl hne
  | cons part parts ih =>
      obtain ⟨hpart, hparts⟩ := List.forall_mem_cons.1 h
      cases parts with
      | nil => exact splitOn_of_not_mem hpart
      | cons next parts =>
          show splitOn sep (part ++ [sep] ++ joinWith [sep] (next :: parts))
              = _
          rw [List.append_assoc, List.singleton_append, splitOn_append hpart,
            ih (by simp) hparts]

theorem not_mem_of_mem_splitOn {part : Text} (h : part ∈ splitOn sep t) :
    sep ∉ part := by
  induction t generalizing part with
  | nil =>
      rw [List.mem_singleton.1 h]
      exact List.not_mem_nil
  | cons c t ih =>
      rw [splitOn, List.foldr_cons, ← splitOn] at h
      split at h
      next =>
          rcases List.mem_cons.1 h with rfl | h
          · exact List.not_mem_nil
          · exact ih h
      next hc =>
          obtain ⟨first, rest, hparts⟩ :=
            List.exists_cons_of_ne_nil (splitOn_ne_nil sep t)
          rw [hparts] at h ih
          rcases List.mem_cons.1 h with rfl | h
          · exact List.not_mem_cons_of_ne_of_not_mem (Ne.symm hc)
              (ih List.mem_cons_self)
          · exact ih (List.mem_cons_of_mem _ h)

-- ============================================================= two parts

theorem bne_of_not_mem (h : sep ∉ a) : ∀ c ∈ a, (c != sep) = true := by
  intro c hc
  rw [bne_iff_ne]
  rintro rfl
  exact h hc

theorem cutAtFirst?_append (h : sep ∉ a) (b : Text) :
    cutAtFirst? sep (a ++ sep :: b) = some (a, b) := by
  unfold cutAtFirst?
  rw [List.dropWhile_append_of_pos (bne_of_not_mem h),
    List.dropWhile_cons_of_neg (by simp), List.takeWhile_append_of_pos
      (bne_of_not_mem h), List.takeWhile_cons_of_neg (by simp),
    List.append_nil]

theorem cutAtFirst?_of_not_mem (h : sep ∉ t) : cutAtFirst? sep t = none := by
  have hdrop : (t ++ []).dropWhile (· != sep) = [] :=
    List.dropWhile_append_of_pos (bne_of_not_mem h)
  rw [List.append_nil] at hdrop
  unfold cutAtFirst?
  rw [hdrop]

theorem cutAtFirst?_eq_some (h : cutAtFirst? sep t = some (a, b)) :
    t = a ++ sep :: b ∧ sep ∉ a := by
  by_cases hsep : sep ∈ t
  · obtain ⟨before, after, rfl, hbefore⟩ := List.eq_append_cons_of_mem hsep
    rw [cutAtFirst?_append hbefore] at h
    injection h with h
    injection h with ha hb
    subst ha hb
    exact ⟨rfl, hbefore⟩
  · rw [cutAtFirst?_of_not_mem hsep] at h
    cases h

theorem cutAtLast?_append (h : sep ∉ b) (a : Text) :
    cutAtLast? sep (a ++ sep :: b) = some (a, b) := by
  have hreverse : (a ++ sep :: b).reverse = b.reverse ++ sep :: a.reverse := by
    simp
  unfold cutAtLast?
  rw [hreverse, cutAtFirst?_append fun hmem => h (List.mem_reverse.1 hmem),
    Option.map_some]
  simp only [List.reverse_reverse]

theorem cutAtLast?_of_not_mem (h : sep ∉ t) : cutAtLast? sep t = none := by
  unfold cutAtLast?
  rw [cutAtFirst?_of_not_mem fun hmem => h (List.mem_reverse.1 hmem),
    Option.map_none]

theorem not_mem_of_cutAtLast? (h : cutAtLast? sep t = none) : sep ∉ t := by
  intro hsep
  obtain ⟨after, before, hreverse, hafter⟩ :=
    List.eq_append_cons_of_mem (List.mem_reverse.2 hsep)
  unfold cutAtLast? at h
  rw [hreverse, cutAtFirst?_append hafter] at h
  cases h

theorem cutAtLast?_eq_some (h : cutAtLast? sep t = some (a, b)) :
    t = a ++ sep :: b ∧ sep ∉ b := by
  obtain ⟨⟨after, before⟩, hcut, hparts⟩ := Option.map_eq_some_iff.1 h
  injection hparts with ha hb
  subst ha hb
  obtain ⟨hreverse, hafter⟩ := cutAtFirst?_eq_some hcut
  refine ⟨?_, fun hmem => hafter (List.mem_reverse.1 hmem)⟩
  rw [← List.reverse_reverse t, hreverse, List.reverse_append,
    List.reverse_cons, List.append_assoc, List.singleton_append]

end GridScript.Text
