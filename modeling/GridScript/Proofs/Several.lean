/-
Several things of which something may not be computed. All the results are
there if and only if each of them is, and they are in the order of the
things.
-/
import Mathlib.Data.List.Forall2

namespace GridScript

variable {α β γ : Type} {f : α → Option β} {xs : List α} {ys : List β}

theorem mapM_eq_some_iff :
    xs.mapM f = some ys ↔ List.Forall₂ (fun x y => f x = some y) xs ys := by
  induction xs generalizing ys with
  | nil =>
      rw [List.mapM_nil, List.forall₂_nil_left_iff]
      exact ⟨fun h => (Option.some.inj h).symm, fun h => by rw [h]; rfl⟩
  | cons x xs ih =>
      rw [List.mapM_cons, List.forall₂_cons_left_iff]
      constructor
      · intro h
        obtain ⟨y, hy, h⟩ := Option.bind_eq_some_iff.1 h
        obtain ⟨ys', hys, h⟩ := Option.bind_eq_some_iff.1 h
        exact ⟨y, ys', hy, ih.1 hys, (Option.some.inj h).symm⟩
      · rintro ⟨y, ys', hy, hys, rfl⟩
        rw [hy, ih.2 hys]
        rfl

/-- What is computed of each thing after it was changed. -/
theorem mapM_map_eq {g : γ → α} {k : γ → β} {zs : List γ}
    (h : ∀ z ∈ zs, f (g z) = some (k z)) :
    (zs.map g).mapM f = some (zs.map k) := by
  rw [mapM_eq_some_iff, List.forall₂_map_left_iff, List.forall₂_map_right_iff,
    List.forall₂_same]
  exact h

/-- Every result is that of one of the things. -/
theorem exists_of_mapM (h : xs.mapM f = some ys) {y : β} (hy : y ∈ ys) :
    ∃ x ∈ xs, f x = some y := by
  have hall := mapM_eq_some_iff.1 h
  clear h
  induction hall with
  | nil => cases hy
  | @cons x y' xs ys hfirst _ ih =>
      rcases List.mem_cons.1 hy with rfl | hy
      · exact ⟨x, List.mem_cons_self, hfirst⟩
      · obtain ⟨x', hx', hread⟩ := ih hy
        exact ⟨x', List.mem_cons_of_mem x hx', hread⟩

/-- Several things are related to something if each of them is. -/
theorem exists_forall₂_iff {R : α → β → Prop} :
    (∃ ys, List.Forall₂ R xs ys) ↔ ∀ x ∈ xs, ∃ y, R x y := by
  induction xs with
  | nil => exact iff_of_true ⟨[], .nil⟩ fun x hx => by cases hx
  | cons x xs ih =>
      rw [List.forall_mem_cons, ← ih]
      constructor
      · rintro ⟨_, hall⟩
        obtain ⟨y, ys, hy, hys, -⟩ := List.forall₂_cons_left_iff.1 hall
        exact ⟨⟨y, hy⟩, ys, hys⟩
      · rintro ⟨⟨y, hy⟩, ys, hys⟩
        exact ⟨y :: ys, .cons hy hys⟩

end GridScript
