/-
Writing many cells. What a cell holds after a list of writes is decided by
the last write to it, and a map's entries write each of its cells once.
So two maps that are merged, the later value counting, have the effect of
both written one after the other, and an empty value clears its cell
whether or not it was merged on the way.
-/
import GridScript.Project.Basic

namespace GridScript

variable {κ ν : Type} [DecidableEq κ]

-- ======================================================== the last entry

/-- The last value that entries give for a key, over what was there
before. -/
def lastEntry (k : κ) (before : Option ν) (entries : List (κ × ν)) :
    Option ν :=
  entries.foldl (fun found e => if e.1 = k then some e.2 else found) before

@[simp] theorem lastEntry_nil (k : κ) (before : Option ν) :
    lastEntry k before [] = before := rfl

theorem lastEntry_cons (k : κ) (before : Option ν) (e : κ × ν)
    (entries : List (κ × ν)) :
    lastEntry k before (e :: entries)
      = lastEntry k (if e.1 = k then some e.2 else before) entries := rfl

/-- Of what was there before and what the entries give, the latter
counts. -/
theorem lastEntry_eq_or (k : κ) (before : Option ν) (entries : List (κ × ν)) :
    lastEntry k before entries = (lastEntry k none entries).or before := by
  induction entries generalizing before with
  | nil => rfl
  | cons e rest ih =>
      rw [lastEntry_cons, lastEntry_cons, ih]
      by_cases hk : e.1 = k
      · rw [if_pos hk, if_pos hk, ih (some e.2), Option.or_assoc]
        rfl
      · rw [if_neg hk, if_neg hk]

/-- The values that entries give for a key, in their order. -/
def valuesFor (k : κ) (entries : List (κ × ν)) : List ν :=
  (entries.filter fun e => e.1 = k).map Prod.snd

@[simp] theorem valuesFor_nil (k : κ) :
    valuesFor k ([] : List (κ × ν)) = [] := rfl

theorem valuesFor_cons (k : κ) (e : κ × ν) (entries : List (κ × ν)) :
    valuesFor k (e :: entries)
      = if e.1 = k then e.2 :: valuesFor k entries
        else valuesFor k entries := by
  unfold valuesFor
  rw [List.filter_cons]
  by_cases hk : e.1 = k <;> simp [hk]

@[simp] theorem valuesFor_append (k : κ) (a b : List (κ × ν)) :
    valuesFor k (a ++ b) = valuesFor k a ++ valuesFor k b := by
  simp [valuesFor]

/-- A key that no entry has is given no value. -/
theorem valuesFor_of_not_mem {k : κ} {entries : List (κ × ν)}
    (h : ∀ e ∈ entries, e.1 ≠ k) :
    valuesFor k entries = [] := by
  unfold valuesFor
  rw [List.filter_eq_nil_iff.2 fun e he => by simpa using h e he]
  rfl

/-- Of all the values for a key the last one counts. -/
theorem lastEntry_eq_getLast? (k : κ) (before : Option ν)
    (entries : List (κ × ν)) :
    lastEntry k before entries = (valuesFor k entries).getLast?.or before := by
  induction entries generalizing before with
  | nil => rfl
  | cons e rest ih =>
      rw [lastEntry_cons, ih, valuesFor_cons]
      by_cases hk : e.1 = k
      · rw [if_pos hk, if_pos hk, List.getLast?_cons]
        cases (valuesFor k rest).getLast? <;> rfl
      · rw [if_neg hk, if_neg hk]

-- ==================================================== folds over a map

namespace SortedMap

/-- No key is there twice. -/
theorem nodup_keys {κ ν : Type} [Ord κ] [Std.LawfulEqOrd κ]
    (m : SortedMap κ ν) :
    m.keys.Nodup := by
  refine List.pairwise_map.2 (m.increasing.imp fun hlt heq => ?_)
  rw [heq, Std.ReflOrd.compare_self] at hlt
  cases hlt

section

variable {κ ν : Type} [Ord κ] [Std.TransOrd κ] [Std.LawfulEqOrd κ]

/-- The keys are those that something is found at. -/
theorem mem_keys_iff {m : SortedMap κ ν} {k : κ} :
    k ∈ m.keys ↔ (m.get? k).isSome = true := by
  unfold keys
  rw [Option.isSome_iff_exists, List.mem_map]
  constructor
  · rintro ⟨⟨_, v⟩, he, rfl⟩
    exact ⟨v, get?_eq_some_iff.2 he⟩
  · rintro ⟨v, hv⟩
    exact ⟨(k, v), get?_eq_some_iff.1 hv, rfl⟩

/-- The later of two values put at one key counts. -/
theorem insert_insert (m : SortedMap κ ν) (k : κ) (v w : ν) :
    (m.insert k v).insert k w = m.insert k w := by
  apply ext_get?
  intro k'
  rw [get?_insert, get?_insert, get?_insert]
  by_cases h : compare k k' = .eq <;> simp [h]

end

variable [Ord κ] [Std.LawfulEqOrd κ]

/-- A map's entries give what a look-up gives: each key has one entry. -/
theorem valuesFor_entries (m : SortedMap κ ν) (k : κ) :
    valuesFor k m.entries = (m.get? k).toList := by
  obtain ⟨entries, hinc⟩ := m
  simp only [get?]
  induction entries with
  | nil => rfl
  | cons e rest ih =>
      obtain ⟨hhead, hrest⟩ := List.pairwise_cons.1 hinc
      rw [valuesFor_cons]
      by_cases hk : e.1 = k
      · -- the key is found here, so no later entry has it
        have hlater : ∀ d ∈ rest, d.1 ≠ k := by
          intro d hd hdk
          have hlt := hhead d hd
          rw [hk, hdk] at hlt
          simp [Std.ReflOrd.compare_self] at hlt
        rw [if_pos hk, valuesFor_of_not_mem hlater, List.find?_cons_of_pos]
        · rfl
        · rw [hk, Std.ReflOrd.compare_self]
          rfl
      · have hne : compare e.1 k ≠ .eq :=
          fun he => hk (Std.LawfulEqCmp.eq_of_compare he)
        rw [if_neg hk, ih hrest, List.find?_cons_of_neg]
        simpa using hne

theorem lastEntry_entries (m : SortedMap κ ν) (k : κ) (before : Option ν) :
    lastEntry k before m.entries = (m.get? k).or before := by
  rw [lastEntry_eq_getLast?, valuesFor_entries]
  cases m.get? k <;> rfl

variable [Std.TransOrd κ]

theorem get?_insert_eq (m : SortedMap κ ν) (k k' : κ) (v : ν) :
    (m.insert k v).get? k' = if k = k' then some v else m.get? k' := by
  rw [get?_insert]
  by_cases h : k = k'
  · rw [if_pos h, if_pos (by rw [h]; exact Std.ReflOrd.compare_self)]
  · rw [if_neg h, if_neg fun he => h (Std.LawfulEqCmp.eq_of_compare he)]

/-- What is found after many insertions. -/
theorem get?_foldl_insert (entries : List (κ × ν)) (m : SortedMap κ ν)
    (k : κ) :
    (entries.foldl (fun m (c, v) => m.insert c v) m).get? k
      = lastEntry k (m.get? k) entries := by
  induction entries generalizing m with
  | nil => rfl
  | cons e rest ih => rw [List.foldl_cons, ih, get?_insert_eq, lastEntry_cons]

end SortedMap

-- ========================================================= written cells

/-- What a cell holds once a value is written to it. -/
def Value.stored (v : Value) : Option Value :=
  if v.isEmpty then none else some v

namespace Table

/-- Writing changes the cells alone. -/
theorem writeAll_eq (t : Table) (es : List (Cell × Value)) :
    t.writeAll es = { t with cells := (t.writeAll es).cells } := by
  unfold writeAll
  induction es generalizing t with
  | nil => rfl
  | cons e rest ih =>
      rw [List.foldl_cons, ih]
      rfl

theorem get?_write (t : Table) (c c' : Cell) (v : Value) :
    (t.write c v).cells.get? c' = if c = c' then v.stored
      else t.cells.get? c' := by
  unfold write Value.stored
  cases hv : v.isEmpty with
  | true =>
      simp only [if_true]
      rw [SortedMap.get?_erase]
      by_cases h : c = c'
      · rw [if_pos h, if_pos (by rw [h]; exact Std.ReflOrd.compare_self)]
      · rw [if_neg h,
          if_neg fun he => h (Std.LawfulEqCmp.eq_of_compare he).symm]
  | false =>
      simp only [Bool.false_eq_true, if_false]
      rw [SortedMap.get?_insert_eq]

/-- A cell holds what was written to it last. -/
theorem get?_writeAll (t : Table) (es : List (Cell × Value)) (c : Cell) :
    (t.writeAll es).cells.get? c
      = match lastEntry c none es with
        | some v => v.stored
        | none => t.cells.get? c := by
  unfold writeAll
  induction es generalizing t with
  | nil => rfl
  | cons e rest ih =>
      rw [List.foldl_cons, ih, lastEntry_cons,
        lastEntry_eq_or c (ite _ _ _) rest, get?_write]
      cases lastEntry c none rest with
      | some v => rfl
      | none => by_cases h : e.1 = c <;> simp [h]

/-- A table and its cells, written by the entries of a map. -/
theorem get?_writeAll_entries (t : Table) (m : SortedMap Cell Value)
    (c : Cell) :
    (t.writeAll m.entries).cells.get? c
      = match m.get? c with
        | some v => v.stored
        | none => t.cells.get? c := by
  rw [get?_writeAll, SortedMap.lastEntry_entries, Option.or_none]

/-- Merged writes have the effect of the writes one after the other. -/
theorem writeAll_merged (t : Table) (first later : SortedMap Cell Value) :
    t.writeAll
      (later.entries.foldl (fun m (c, v) => m.insert c v) first).entries
      = (t.writeAll first.entries).writeAll later.entries := by
  have hcells :
      (t.writeAll
        (later.entries.foldl
          (fun m (c, v) => m.insert c v) first).entries).cells
        = ((t.writeAll first.entries).writeAll later.entries).cells := by
    apply SortedMap.ext_get?
    intro c
    rw [get?_writeAll_entries, get?_writeAll_entries, get?_writeAll_entries,
      SortedMap.get?_foldl_insert, SortedMap.lastEntry_entries]
    cases later.get? c <;> rfl
  rw [writeAll_eq, hcells, writeAll_eq (t.writeAll first.entries),
    writeAll_eq t first.entries]

end Table

end GridScript
