/-
Maps that are written under other keys. A table's cells are written under
the texts of their addresses and in the order of these texts, and read back
into the order of the cells. Nothing gets lost on either way as long as
every key has a text of its own (`ofList_rekeyed`): a map is told by its
entries, in whatever order they come.
-/
import GridScript.Proofs.Project.Cells

namespace GridScript

variable {κ ν : Type}

theorem mem_valuesFor [DecidableEq κ] {k : κ} {v : ν}
    {entries : List (κ × ν)} :
    v ∈ valuesFor k entries ↔ (k, v) ∈ entries := by
  unfold valuesFor
  rw [List.mem_map]
  constructor
  · rintro ⟨e, he, rfl⟩
    obtain ⟨hmem, hk⟩ := List.mem_filter.1 he
    obtain rfl : e.1 = k := of_decide_eq_true hk
    exact hmem
  · exact fun h => ⟨(k, v), List.mem_filter.2 ⟨h, decide_eq_true rfl⟩, rfl⟩

section LastEntry

variable [DecidableEq κ] {k : κ} {v : ν} {entries : List (κ × ν)}

theorem mem_of_lastEntry (h : lastEntry k none entries = some v) :
    (k, v) ∈ entries := by
  rw [lastEntry_eq_getLast?, Option.or_none] at h
  exact mem_valuesFor.1 (List.mem_of_getLast? h)

theorem exists_lastEntry (h : ∃ e ∈ entries, e.1 = k) :
    ∃ v, lastEntry k none entries = some v := by
  obtain ⟨⟨_, v⟩, he, rfl⟩ := h
  refine Option.isSome_iff_exists.1
    (Option.isSome_iff_ne_none.2 fun hnone => ?_)
  rw [lastEntry_eq_getLast?, Option.or_none,
    List.getLast?_eq_none_iff] at hnone
  exact absurd (mem_valuesFor.2 he) (by simp [hnone])

/-- Of several lists of entries the last one that has the key counts. -/
theorem lastEntry_flatMap {σ : Type} {f : σ → List (κ × ν)} {has : σ → Bool}
    {ss : List σ} (h : ∀ s ∈ ss, has s = true ↔ ∃ e ∈ f s, e.1 = k)
    (before : Option ν) :
    lastEntry k before (ss.flatMap f)
      = ((ss.filter has).getLast?.bind fun s => lastEntry k none (f s)).or
        before := by
  induction ss generalizing before with
  | nil => rfl
  | cons s ss ih =>
      obtain ⟨hs, hrest⟩ := List.forall_mem_cons.1 h
      have happend : lastEntry k before ((s :: ss).flatMap f)
          = lastEntry k (lastEntry k before (f s)) (ss.flatMap f) :=
            List.foldl_append
      rw [happend, ih hrest, lastEntry_eq_or k before (f s), List.filter_cons]
      cases hhas : has s with
      | true =>
          rw [if_pos rfl, List.getLast?_cons]
          cases hlast : (ss.filter has).getLast? with
          | none => rfl
          | some s' =>
              -- a later list has the key too, and counts
              obtain ⟨hs', hhas'⟩ :=
                List.mem_filter.1 (List.mem_of_getLast? hlast)
              obtain ⟨v, hv⟩ := exists_lastEntry ((hrest s' hs').1 hhas')
              rw [Option.bind_some, Option.getD_some, Option.bind_some, hv]
              rfl
      | false =>
          have hnone : lastEntry k none (f s) = none := by
            refine Option.eq_none_iff_forall_not_mem.2 fun v hv => ?_
            rw [hs.2 ⟨_, mem_of_lastEntry hv, rfl⟩] at hhas
            cases hhas
          rw [if_neg Bool.false_ne_true, hnone, Option.none_or]

end LastEntry

namespace SortedMap

section

variable {κ ν ω : Type} [Ord κ]

-- ========================================================= mapped values

theorem insertEntry_map (f : ν → ω) (k : κ) (v : ν) (es : List (κ × ν)) :
    insertEntry k (f v) (es.map fun e => (e.1, f e.2))
      = (insertEntry k v es).map fun e => (e.1, f e.2) := by
  induction es with
  | nil => rfl
  | cons e rest ih =>
      rw [List.map_cons, insertEntry, insertEntry]
      split
      · rfl
      · rfl
      · rw [ih]
        rfl

/-- Values may be changed before or after they are put in order. -/
theorem entries_ofList_map [Std.TransOrd κ] (f : ν → ω) (es : List (κ × ν)) :
    (ofList (es.map fun e => (e.1, f e.2))).entries
      = (ofList es).entries.map fun e => (e.1, f e.2) := by
  have hfold : ∀ (m : SortedMap κ ν) (n : SortedMap κ ω),
      n.entries = m.entries.map (fun e => (e.1, f e.2)) →
      ((es.map fun e => (e.1, f e.2)).foldl
        (fun n e => n.insert e.1 e.2) n).entries
        = (es.foldl (fun m e => m.insert e.1 e.2) m).entries.map fun e =>
          (e.1, f e.2) := by
    induction es with
    | nil => exact fun m n h => h
    | cons e rest ih =>
        intro m n h
        refine ih _ _ ?_
        show insertEntry e.1 (f e.2) n.entries
            = (insertEntry e.1 e.2 m.entries).map _
        rw [h, insertEntry_map]
  exact hfold .empty .empty rfl

end

-- ================================================================ entries

variable [Ord κ] [Std.TransOrd κ] [Std.LawfulEqOrd κ]

theorem get?_ofList [DecidableEq κ] (es : List (κ × ν)) (k : κ) :
    (ofList es).get? k = lastEntry k none es := by
  unfold ofList
  rw [get?_foldl_insert, get?_empty]

theorem mem_of_get?_ofList [DecidableEq κ] {es : List (κ × ν)} {k : κ} {v : ν}
    (h : (ofList es).get? k = some v) : (k, v) ∈ es :=
  mem_of_lastEntry (get?_ofList es k ▸ h)

theorem exists_get?_ofList [DecidableEq κ] {es : List (κ × ν)} {e : κ × ν}
    (h : e ∈ es) :
    ∃ v, (ofList es).get? e.1 = some v := by
  obtain ⟨v, hv⟩ := exists_lastEntry ⟨e, h, rfl⟩
  exact ⟨v, (get?_ofList es e.1).trans hv⟩

/-- A list in which no key has two values has the entries of its map. -/
theorem mem_entries_ofList [DecidableEq κ] {es : List (κ × ν)}
    (h : ∀ a ∈ es, ∀ b ∈ es, a.1 = b.1 → a = b) {e : κ × ν} :
    e ∈ (ofList es).entries ↔ e ∈ es := by
  obtain ⟨k, v⟩ := e
  rw [← get?_eq_some_iff]
  refine ⟨mem_of_get?_ofList, fun hmem => ?_⟩
  obtain ⟨w, hget⟩ := exists_get?_ofList hmem
  have heq := h _ (mem_of_get?_ofList hget) _ hmem rfl
  injection heq with _ hw
  rw [hget, hw]

theorem eq_of_mem_entries {m : SortedMap κ ν} {a b : κ × ν}
    (ha : a ∈ m.entries) (hb : b ∈ m.entries) (h : a.1 = b.1) : a = b := by
  obtain ⟨k, v⟩ := a
  obtain ⟨k', w⟩ := b
  obtain rfl : k = k' := h
  rw [← get?_eq_some_iff] at ha hb
  rw [Option.some.inj (ha.symm.trans hb)]

/-- A map is told by its entries, in any order. -/
theorem ofList_eq [DecidableEq κ] {m : SortedMap κ ν} {es : List (κ × ν)}
    (h : ∀ e, e ∈ es ↔ e ∈ m.entries) : ofList es = m := by
  apply ext_get?
  intro k
  ext v
  rw [get?_eq_some_iff, get?_eq_some_iff, mem_entries_ofList, h]
  exact fun a ha b hb => eq_of_mem_entries ((h a).1 ha) ((h b).1 hb)

@[simp] theorem ofList_entries [DecidableEq κ] (m : SortedMap κ ν) :
    ofList m.entries = m :=
  ofList_eq fun _ => Iff.rfl

variable {ι : Type} [Ord ι] [Std.TransOrd ι] [Std.LawfulEqOrd ι]
  [DecidableEq ι]

/-- A map that was put in the order of other keys is found again from them,
if no two keys get the same one and every entry is told from it. -/
theorem ofList_rekeyed [DecidableEq κ] {m : SortedMap κ ν} {f : κ → ι}
    {g : ι × ν → Option (κ × ν)}
    (hf : ∀ a ∈ m.entries, ∀ b ∈ m.entries, f a.1 = f b.1 → a.1 = b.1)
    (hg : ∀ e ∈ m.entries, g (f e.1, e.2) = some e) :
    ofList ((ofList (m.entries.map fun e => (f e.1, e.2))).entries.filterMap g)
      = m := by
  have hdistinct : ∀ a ∈ m.entries.map fun e => (f e.1, e.2),
      ∀ b ∈ m.entries.map fun e => (f e.1, e.2), a.1 = b.1 → a = b := by
    intro a' ha' b' hb' hkey
    obtain ⟨a, ha, rfl⟩ := List.mem_map.1 ha'
    obtain ⟨b, hb, rfl⟩ := List.mem_map.1 hb'
    rw [eq_of_mem_entries ha hb (hf a ha b hb hkey)]
  apply ofList_eq
  intro e
  rw [List.mem_filterMap]
  constructor
  · rintro ⟨e', he', hg'⟩
    obtain ⟨a, ha, rfl⟩ :=
      List.mem_map.1 ((mem_entries_ofList hdistinct).1 he')
    rw [hg a ha] at hg'
    exact Option.some.inj hg' ▸ ha
  · exact fun he =>
      ⟨_, (mem_entries_ofList hdistinct).2 (List.mem_map_of_mem he), hg e he⟩

end SortedMap

end GridScript
