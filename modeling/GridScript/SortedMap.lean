/-
Finite maps kept as lists in the strict order of their keys. A map that
is always written out in key order and never seen in another is best held
that way: two maps with the same entries are then the same map, so a
table that was saved and read back can be compared by equality.

The order of the entries is part of the type; `insert`, `erase` and
`filter` carry the proof along. What a look-up gives after each of them is
stated beside it.
-/
import GridScript.Text.Basic

namespace GridScript

/-- A finite map, its entries strictly increasing by key. -/
structure SortedMap (κ ν : Type) [Ord κ] where
  /-- The entries, in key order. -/
  entries : List (κ × ν)
  /-- No key is repeated or out of order. -/
  increasing : entries.Pairwise fun a b => compare a.1 b.1 = .lt

namespace SortedMap

variable {κ ν : Type} [Ord κ]

/-- Maps with the same entries are the same map. -/
theorem ext_entries {a b : SortedMap κ ν} (h : a.entries = b.entries) :
    a = b := by
  cases a; cases b; simp_all

instance [DecidableEq κ] [DecidableEq ν] : DecidableEq (SortedMap κ ν) :=
  fun a b =>
    decidable_of_iff (a.entries = b.entries) ⟨ext_entries, fun h => h ▸ rfl⟩

/-- The map without entries. -/
def empty : SortedMap κ ν := ⟨[], .nil⟩

instance : Inhabited (SortedMap κ ν) := ⟨empty⟩

instance : EmptyCollection (SortedMap κ ν) := ⟨empty⟩

/-- Has the map no entries? -/
def isEmpty (m : SortedMap κ ν) : Bool := m.entries.isEmpty

/-- The keys, in order. -/
def keys (m : SortedMap κ ν) : List κ := m.entries.map (·.1)

/-- The value at a key. -/
def get? (m : SortedMap κ ν) (k : κ) : Option ν :=
  (m.entries.find? fun e => compare e.1 k == .eq).map (·.2)

/-- Nothing is found in the map without entries. -/
theorem get?_empty (k : κ) : (empty : SortedMap κ ν).get? k = none := rfl

/-- A look-up finds exactly the entries. -/
theorem get?_eq_some_iff [Std.TransOrd κ] [Std.LawfulEqOrd κ]
    {m : SortedMap κ ν} {k : κ} {v : ν} :
    m.get? k = some v ↔ (k, v) ∈ m.entries := by
  obtain ⟨es, hes⟩ := m
  simp only [get?]
  induction es with
  | nil => simp
  | cons head rest ih =>
    obtain ⟨k', v'⟩ := head
    obtain ⟨hhead, hrest⟩ := List.pairwise_cons.1 hes
    by_cases h : k' = k
    · subst h
      have hout : (k', v) ∉ rest := fun hv =>
        absurd (hhead _ hv) (by simp [Std.ReflOrd.compare_self])
      simp [Std.ReflOrd.compare_self, hout, eq_comm]
    · have hne : compare k' k ≠ .eq :=
        fun he => h (Std.LawfulEqCmp.eq_of_compare he)
      have hkv : (k, v) ≠ (k', v') := fun he => h (congrArg Prod.fst he).symm
      rw [List.find?_cons_of_neg (by simpa using hne), ih hrest, List.mem_cons]
      exact ⟨.inr, fun h => h.resolve_left hkv⟩

/-- Maps in which every look-up gives the same are the same map. -/
theorem ext_get? [Std.TransOrd κ] [Std.LawfulEqOrd κ] {a b : SortedMap κ ν}
    (h : ∀ k, a.get? k = b.get? k) : a = b := by
  have hmem (e : κ × ν) : e ∈ a.entries ↔ e ∈ b.entries := by
    rw [← get?_eq_some_iff, h, get?_eq_some_iff]
  have hnodup (m : SortedMap κ ν) : m.entries.Nodup :=
    m.increasing.imp fun hlt heq => by
      simp [heq, Std.ReflOrd.compare_self] at hlt
  have hperm := (List.perm_ext_iff_of_nodup (hnodup a) (hnodup b)).2 hmem
  -- two entries cannot each come before the other
  refine ext_entries
    (hperm.eq_of_pairwise (fun x y _ _ hxy hyx => ?_) a.increasing
      b.increasing)
  exact absurd (Std.TransCmp.lt_trans hxy hyx)
    (by simp [Std.ReflOrd.compare_self])

-- ======================================================== insertion

/-- Puts a value at its place in an ordered list of entries. -/
def insertEntry (k : κ) (v : ν) : List (κ × ν) → List (κ × ν)
  | [] => [(k, v)]
  | (k', v') :: rest =>
    match compare k k' with
    | .lt => (k, v) :: (k', v') :: rest
    | .eq => (k, v) :: rest
    | .gt => (k', v') :: insertEntry k v rest

/-- An entry of the result is the new one or an old one. -/
theorem mem_insertEntry {k : κ} {v : ν} {es : List (κ × ν)} {e : κ × ν}
    (h : e ∈ insertEntry k v es) : e = (k, v) ∨ e ∈ es := by
  induction es with
  | nil => simpa [insertEntry] using h
  | cons head rest ih =>
    obtain ⟨k', v'⟩ := head
    unfold insertEntry at h
    split at h
    · rcases List.mem_cons.1 h with h | h
      · exact .inl h
      · exact .inr h
    · rcases List.mem_cons.1 h with h | h
      · exact .inl h
      · exact .inr (List.mem_cons_of_mem _ h)
    · rcases List.mem_cons.1 h with h | h
      · exact .inr (h ▸ List.mem_cons_self)
      · exact (ih h).imp id (List.mem_cons_of_mem _)

/-- The order is kept. -/
theorem increasing_insertEntry [Std.TransOrd κ] (k : κ) (v : ν)
    {es : List (κ × ν)} (h : es.Pairwise fun a b => compare a.1 b.1 = .lt) :
    (insertEntry k v es).Pairwise fun a b => compare a.1 b.1 = .lt := by
  induction es with
  | nil => simp [insertEntry]
  | cons head rest ih =>
    obtain ⟨k', v'⟩ := head
    obtain ⟨hhead, hrest⟩ := List.pairwise_cons.1 h
    unfold insertEntry
    split
    next hlt =>
      refine List.pairwise_cons.2 ⟨fun e he => ?_, h⟩
      rcases List.mem_cons.1 he with rfl | he
      · exact hlt
      · exact Std.TransCmp.lt_trans hlt (hhead e he)
    next heq =>
      refine List.pairwise_cons.2 ⟨fun e he => ?_, hrest⟩
      exact Std.TransCmp.lt_of_eq_of_lt heq (hhead e he)
    next hgt =>
      refine List.pairwise_cons.2 ⟨fun e he => ?_, ih hrest⟩
      rcases mem_insertEntry he with rfl | he
      · exact Std.OrientedCmp.lt_of_gt hgt
      · exact hhead e he

/-- What is found among ordered entries after one is put in its place. -/
theorem find?_insertEntry [Std.TransOrd κ] [Std.LawfulEqOrd κ]
    (k k' : κ) (v : ν) (es : List (κ × ν)) :
    (insertEntry k v es).find? (fun e => compare e.1 k' == .eq) =
      if compare k k' = .eq then some (k, v)
      else es.find? fun e => compare e.1 k' == .eq := by
  induction es with
  | nil => by_cases h : compare k k' = .eq <;> simp [insertEntry, h]
  | cons head rest ih =>
    obtain ⟨k'', v''⟩ := head
    unfold insertEntry
    split
    next => by_cases h : compare k k' = .eq <;> simp [h]
    next heq =>
      obtain rfl := Std.LawfulEqCmp.eq_of_compare heq
      by_cases h : compare k k' = .eq <;> simp [h]
    next hgt =>
      rw [List.find?_cons, ih]
      by_cases h : compare k k' = .eq
      · obtain rfl := Std.LawfulEqCmp.eq_of_compare h
        have hne : compare k'' k = .lt := Std.OrientedCmp.lt_of_gt hgt
        simp [hne]
      · simp only [h, if_false, List.find?_cons]

/-- The map with `v` at `k`, in place of what stood there. -/
def insert [Std.TransOrd κ] (m : SortedMap κ ν) (k : κ) (v : ν) :
    SortedMap κ ν :=
  ⟨insertEntry k v m.entries, increasing_insertEntry k v m.increasing⟩

/-- A look-up after an insertion. -/
theorem get?_insert [Std.TransOrd κ] [Std.LawfulEqOrd κ] (m : SortedMap κ ν)
    (k k' : κ) (v : ν) :
    (m.insert k v).get? k' = if compare k k' = .eq then some v
      else m.get? k' := by
  unfold get? insert
  simp only [find?_insertEntry]
  split <;> rfl

/-- The map of a list of entries, of which a later one replaces an
earlier one at its key. -/
def ofList [Std.TransOrd κ] (es : List (κ × ν)) : SortedMap κ ν :=
  es.foldl (fun m (k, v) => m.insert k v) empty

-- ======================================================== removal

/-- The map with only the entries that pass a test. -/
def filter (p : κ → ν → Bool) (m : SortedMap κ ν) : SortedMap κ ν :=
  ⟨m.entries.filter fun e => p e.1 e.2, m.increasing.filter _⟩

/-- A look-up after a filter. -/
theorem get?_filter [Std.TransOrd κ] [Std.LawfulEqOrd κ] (p : κ → ν → Bool)
    (m : SortedMap κ ν) (k : κ) :
    (m.filter p).get? k = (m.get? k).filter (p k) := by
  ext v
  rw [get?_eq_some_iff, Option.filter_eq_some_iff, get?_eq_some_iff]
  simp [filter]

/-- The map without an entry at `k`. -/
def erase (m : SortedMap κ ν) (k : κ) : SortedMap κ ν :=
  m.filter fun k' _ => compare k' k != .eq

/-- A look-up after a removal. -/
theorem get?_erase [Std.TransOrd κ] [Std.LawfulEqOrd κ] (m : SortedMap κ ν)
    (k k' : κ) :
    (m.erase k).get? k' = if compare k' k = .eq then none else m.get? k' := by
  unfold erase
  rw [get?_filter]
  by_cases h : compare k' k = .eq
  · rw [if_pos h]; cases m.get? k' <;> simp [h]
  · rw [if_neg h]; cases m.get? k' <;> simp [h]

end SortedMap

end GridScript
