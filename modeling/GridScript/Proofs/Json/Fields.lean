/-
Lists and objects that were made by one function are read by its inverse,
and whatever was read from one was read from its items.
-/
import GridScript.Json.Fields
import GridScript.Proofs.Json.RoundTrip
import GridScript.Proofs.Json.Spelling
import GridScript.Proofs.Several

namespace GridScript.Json

variable {α : Type}

/-- A list is read item by item. -/
theorem asList?_map {γ : Type} {f : Json → Option γ} {g : α → Json} {k : α → γ}
    {xs : List α} (h : ∀ x ∈ xs, f (g x) = some (k x)) :
    asList? f (.array (xs.map g)) = some (xs.map k) :=
  mapM_map_eq h

/-- The members of an object are read back if their values are. -/
theorem asMembers?_map {f : Json → Option α} {g : α → Json}
    {ms : List (Text × α)} (h : ∀ m ∈ ms, f (g m.2) = some m.2) :
    asMembers? f (.object (ms.map fun m => (m.1, g m.2))) = some ms := by
  have hmember : ∀ m ∈ ms, (f (g m.2)).map (m.1, ·) = some (id m) := by
    intro m hm
    rw [h m hm]
    rfl
  have hread := mapM_map_eq (f := fun m => (f m.2).map (m.1, ·))
    (g := fun m : Text × α => (m.1, g m.2)) hmember
  rwa [List.map_id] at hread

-- ========================================================= what was read

variable {f : Json → Option α} {j : Json} {slot : Option Json} {a : α}

theorem exists_of_asList? {xs : List α} (h : asList? f j = some xs) {x : α}
    (hx : x ∈ xs) :
    ∃ item, f item = some x := by
  unfold asList? at h
  split at h
  next =>
      obtain ⟨item, -, hread⟩ := exists_of_mapM h hx
      exact ⟨item, hread⟩
  next => cases h

theorem exists_of_asMembers? {ms : List (Text × α)}
    (h : asMembers? f j = some ms) {m : Text × α} (hm : m ∈ ms) :
    ∃ content, f content = some m.2 := by
  unfold asMembers? at h
  split at h
  next =>
      obtain ⟨⟨name, content⟩, -, hread⟩ := exists_of_mapM h hm
      obtain ⟨a, ha, rfl⟩ := Option.map_eq_some_iff.1 hread
      exact ⟨content, ha⟩
  next => cases h

theorem exists_of_required? (h : required? f slot = some a) :
    ∃ j, f j = some a := by
  obtain ⟨j, -, hread⟩ := Option.bind_eq_some_iff.1 h
  exact ⟨j, hread⟩

theorem cases_of_defaulted? {missing : α}
    (h : defaulted? missing f slot = some a) :
    a = missing ∨ ∃ j, f j = some a := by
  cases slot with
  | none =>
      cases h
      exact .inl rfl
  | some j => exact .inr ⟨j, h⟩

-- ============================================================ legibility

theorem areLegible_iff {js : List Json} :
    areLegible js = true ↔ ∀ j ∈ js, j.isLegible = true := by
  induction js with
  | nil => simp [areLegible]
  | cons j js ih => rw [areLegible, Bool.and_eq_true, ih, List.forall_mem_cons]

theorem membersLegible_iff {ms : List (Text × Json)} :
    membersLegible ms = true ↔ ∀ m ∈ ms, m.2.isLegible = true := by
  induction ms with
  | nil => simp [membersLegible]
  | cons m ms ih =>
      rw [membersLegible, Bool.and_eq_true, ih, List.forall_mem_cons]

theorem isLegible_array {js : List Json} (h : ∀ j ∈ js, j.isLegible = true) :
    (Json.array js).isLegible = true := areLegible_iff.2 h

theorem isLegible_object {ms : List (Text × Json)}
    (h : ∀ m ∈ ms, m.2.isLegible = true) :
    (Json.object ms).isLegible = true := membersLegible_iff.2 h

theorem isLegible_ofNat (n : Nat) : (Json.ofNat n).isLegible = true :=
  beq_iff_eq.2 (readNumber?_decimal n)

theorem isLegible_ofDouble {x : Double} (h : x.isFinite = true) :
    (Json.ofDouble x).isLegible = true := beq_iff_eq.2 (readNumber?_double h)

end GridScript.Json
