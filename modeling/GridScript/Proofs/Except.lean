/-
Computations that may be refused. One that goes through has gone through in
all its steps, so what each step gives or keeps is given or kept by all of
them.
-/
namespace GridScript

variable {ε α β : Type}

theorem exists_of_bind_eq_ok {x : Except ε α} {f : α → Except ε β} {b : β}
    (h : x >>= f = .ok b) : ∃ a, x = .ok a ∧ f a = .ok b := by
  cases x with
  | error e => cases h
  | ok a => exact ⟨a, rfl, h⟩

section Fold

variable {f g : β → α → Except ε β} {xs : List α} {start last : β}

/-- What every step keeps is kept by all of them. -/
theorem of_foldlM {P : β → Prop}
    (hstep : ∀ b x next, P b → f b x = .ok next → P next) (hstart : P start)
    (h : xs.foldlM f start = .ok last) : P last := by
  induction xs generalizing start with
  | nil =>
      injection h with h
      exact h ▸ hstart
  | cons x xs ih =>
      rw [List.foldlM_cons] at h
      obtain ⟨next, hnext, hrest⟩ := exists_of_bind_eq_ok h
      exact ih (hstep start x next hstart hnext) hrest

/-- What every step gives by another rule too is given by that rule. -/
theorem foldlM_eq_ok (hstep : ∀ b x next, f b x = .ok next → g b x = .ok next)
    (h : xs.foldlM f start = .ok last) : xs.foldlM g start = .ok last := by
  induction xs generalizing start with
  | nil => exact h
  | cons x xs ih =>
      rw [List.foldlM_cons] at h ⊢
      obtain ⟨next, hnext, hrest⟩ := exists_of_bind_eq_ok h
      rw [hstep start x next hnext]
      exact ih hrest

end Fold

end GridScript
