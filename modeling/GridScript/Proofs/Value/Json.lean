/-
Values are read back from JSON. A number is, if the reader of doubles finds
it again from its spelling, and a time, if it is one of a single day; texts,
truth values, dates and nothing always are. What was read from any JSON has
only finite numbers and times of a single day (`Value.Sound`).
-/
import GridScript.Proofs.Json.Fields
import GridScript.Proofs.Json.Scaling
import GridScript.Proofs.Value.Date
import GridScript.Value.Json

namespace GridScript

/-- The doubles in a value. -/
def Value.doubles : Value → List Double
  | number x => [x]
  | _ => []

/-- Does the reader of JSON numbers find the double again? -/
def Double.Reread (x : Double) : Prop :=
  Json.toDouble? (Number.json x) = some x

instance (x : Double) : Decidable x.Reread :=
  inferInstanceAs (Decidable (_ = _))

namespace Value

/-- Is the time, if the value is one, less than a day? -/
def InDay : Value → Prop
  | time s => s < TimeOfDay.secondsPerDay
  | _ => True

instance : DecidablePred InDay
  | time s => inferInstanceAs (Decidable (s < TimeOfDay.secondsPerDay))
  | text _ | number _ | boolean _ | date _ | empty => isTrue trivial

theorem isReadable_toJson {v : Value} (h : ∀ x ∈ v.doubles, x.Reread) :
    v.toJson.isReadable = true := by
  cases v with
  | number x =>
      have hread : Json.toDouble? (Number.json x) = some x :=
        h x List.mem_cons_self
      show (true && ((Json.toDouble? (Number.json x)).isSome && true)) = true
      rw [hread]
      rfl
  | _ => rfl

theorem depth_toJson (v : Value) : v.toJson.depth = 1 := by
  cases v <;> rfl

/-- A value with a kind is read from its content. -/
theorem ofJson?_tagged {outer : Nat} {kind : String} {content : Json}
    (hkept : (tagged kind content).isKept outer = true)
    (hkind : kind.toList ≠ "empty".toList) :
    ofJson? outer (tagged kind content) = ofContent? kind.toList content := by
  have hfields : Json.fields? [contentMember] false
      (.object [(contentMember, content)])
      = some [some content] := rfl
  have htaken : takeKind?
      [(kindMember, .text kind.toList), (contentMember, content)]
      = some (kind.toList, [(contentMember, content)]) := rfl
  unfold ofJson?
  rw [hkept]
  simp only [tagged, Bool.not_true, Bool.false_eq_true, if_false, htaken,
    Option.bind_eq_bind, Option.bind_some, if_neg hkind, hfields]
  rfl

/-- A value is read back wherever it is not too deep. -/
theorem ofJson?_toJson {outer : Nat} (houter : outer < Json.depthLimit)
    {v : Value} (hdoubles : ∀ x ∈ v.doubles, x.Reread) (hday : v.InDay) :
    ofJson? outer v.toJson = some v := by
  have hkept : v.toJson.isKept outer = true := by
    unfold Json.isKept
    rw [isReadable_toJson hdoubles, depth_toJson, Bool.true_and,
      decide_eq_true_eq]
    omega
  cases v with
  | text t => exact ofJson?_tagged hkept (by decide)
  | number x =>
      have hread : Json.toDouble? (Number.json x) = some x :=
        hdoubles x List.mem_cons_self
      have hcontent : ofContent? "number".toList (.ofDouble x)
          = (Json.toDouble? (Number.json x)).map number := rfl
      rw [toJson, ofJson?_tagged hkept (by decide), hcontent, hread,
        Option.map_some]
  | boolean b => exact ofJson?_tagged hkept (by decide)
  | date d =>
      have hcontent : ∀ t,
          ofContent? "date".toList (.text t) = (Date.parse? t).map date :=
        fun _ => rfl
      rw [toJson, ofJson?_tagged hkept (by decide), hcontent, Date.parse?_text,
        Option.map_some]
  | time s =>
      have hcontent : ∀ t,
          ofContent? "time".toList (.text t) = (TimeOfDay.parse? t).map time :=
        fun _ => rfl
      rw [toJson, ofJson?_tagged hkept (by decide), hcontent,
        TimeOfDay.parse?_text hday, Option.map_some]
  | empty =>
      unfold ofJson?
      rw [hkept]
      rfl

theorem isLegible_toJson {v : Value} (h : ∀ x ∈ v.doubles, x.isFinite = true) :
    v.toJson.isLegible = true := by
  cases v with
  | number x =>
      refine Json.isLegible_object ?_
      intro m hm
      rcases List.mem_cons.1 hm with rfl | hm
      · rfl
      · obtain rfl := List.mem_singleton.1 hm
        exact Json.isLegible_ofDouble (h x List.mem_cons_self)
  | _ => rfl

-- ========================================================= what was read

/-- A value that JSON can hold. -/
structure Sound (v : Value) : Prop where
  finite : ∀ x ∈ v.doubles, x.isFinite = true
  inDay : v.InDay

theorem sound_of_ofContent? {kind : Text} {content : Json} {v : Value}
    (h : ofContent? kind content = some v) : v.Sound := by
  unfold ofContent? at h
  split at h
  next =>
      obtain ⟨x, hx, rfl⟩ := Option.map_eq_some_iff.1 h
      exact ⟨List.forall_mem_singleton.2 (Json.isFinite_of_asDouble? hx),
        trivial⟩
  split at h
  next =>
      obtain ⟨t, -, rfl⟩ := Option.map_eq_some_iff.1 h
      exact ⟨List.forall_mem_nil _, trivial⟩
  split at h
  next =>
      obtain ⟨b, -, rfl⟩ := Option.map_eq_some_iff.1 h
      exact ⟨List.forall_mem_nil _, trivial⟩
  split at h
  next =>
      obtain ⟨d, -, rfl⟩ := Option.map_eq_some_iff.1 h
      exact ⟨List.forall_mem_nil _, trivial⟩
  split at h
  next =>
      obtain ⟨s, hs, rfl⟩ := Option.map_eq_some_iff.1 h
      obtain ⟨t, -, hs⟩ := Option.bind_eq_some_iff.1 hs
      exact ⟨List.forall_mem_nil _, TimeOfDay.lt_of_parse? hs⟩
  next => cases h

theorem sound_empty : empty.Sound := ⟨List.forall_mem_nil _, trivial⟩

/-- A value that is read can be written. -/
theorem sound_of_ofJson? {outer : Nat} {j : Json} {v : Value}
    (h : ofJson? outer j = some v) :
    v.Sound := by
  unfold ofJson? at h
  split at h
  next => cases h
  split at h
  next =>
      obtain ⟨⟨kind, others⟩, -, h⟩ := Option.bind_eq_some_iff.1 h
      simp only at h
      split at h
      next =>
          cases h
          exact sound_empty
      next =>
          obtain ⟨fields, -, h⟩ := Option.bind_eq_some_iff.1 h
          obtain ⟨content, -, h⟩ := Option.bind_eq_some_iff.1 h
          exact sound_of_ofContent? h
  next =>
      obtain ⟨kind, -, h⟩ := Option.bind_eq_some_iff.1 h
      split at h
      next =>
          cases h
          exact sound_empty
      next => cases h
  next =>
      obtain ⟨kind, -, h⟩ := Option.bind_eq_some_iff.1 h
      exact sound_of_ofContent? h
  next => cases h

end Value

end GridScript
