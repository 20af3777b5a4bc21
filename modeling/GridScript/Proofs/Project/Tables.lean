/-
The tables of a project. No command takes a table away, so a replay can
only add tables (`Project.Has.replay`), and a command that creates one goes
through only if it is new (`Command.has_apply`).
-/
import GridScript.Proofs.Project.Replay
import GridScript.Script.Vocabulary

namespace GridScript

namespace Project

variable {p q : Project}

/-- There is a table with the identifier. -/
def Has (p : Project) (id : Text) : Prop := (p.table? id).isSome = true

instance (p : Project) (id : Text) : Decidable (p.Has id) :=
  inferInstanceAs (Decidable ((p.table? id).isSome = true))

/-- No two tables have one local name. -/
def DistinctNames (p : Project) : Prop :=
  ∀ a b, p.Has a → p.Has b → Script.tableAlias a = Script.tableAlias b → a = b

theorem has_iff_mem_keys (id : Text) : p.Has id ↔ id ∈ p.tables.keys :=
  SortedMap.mem_keys_iff.symm

theorem distinctNames_iff :
    p.DistinctNames ↔ ∀ a ∈ p.tables.keys, ∀ b ∈ p.tables.keys,
      Script.tableAlias a = Script.tableAlias b → a = b := by
  unfold DistinctNames
  simp only [has_iff_mem_keys]
  exact ⟨fun h a ha b hb => h a b ha hb, fun h a b ha hb => h a ha b hb⟩

instance (p : Project) : Decidable p.DistinctNames :=
  decidable_of_iff _ distinctNames_iff.symm

theorem not_has_empty (id : Text) : ¬empty.Has id := fun h => by cases h

/-- A table that is changed was there. -/
theorem changeTable_eq_ok {id : Text} {f : Table → Table}
    (h : p.changeTable id f = .ok q) :
    ∃ t, p.table? id = some t ∧ q = ⟨p.sheets, p.tables.insert id (f t)⟩ := by
  unfold changeTable at h
  cases hp : p.table? id with
  | none =>
      rw [hp] at h
      cases h
  | some t =>
      rw [hp] at h
      injection h with hq
      exact ⟨t, rfl, hq.symm⟩

theorem tables_changeTable {id : Text} {f : Table → Table}
    (h : p.changeTable id f = .ok q) :
    ∃ t, p.table? id = some t ∧ q.tables = p.tables.insert id (f t) := by
  obtain ⟨t, ht, hq⟩ := changeTable_eq_ok h
  exact ⟨t, ht, by rw [hq]⟩

/-- A table that is changed was there, and none comes or goes. -/
theorem has_changeTable {id : Text} {f : Table → Table}
    (h : p.changeTable id f = .ok q) :
    p.Has id ∧ ∀ t, q.Has t ↔ p.Has t := by
  obtain ⟨old, hold, hq⟩ := tables_changeTable h
  unfold Has table? at *
  refine ⟨by rw [hold]; rfl, ?_⟩
  intro t
  rw [hq, SortedMap.get?_insert_eq]
  split
  case isTrue heq =>
      rw [← heq, hold]
      simp
  case isFalse => exact Iff.rfl

/-- A sheet that is changed was there. -/
theorem changeSheet_eq_ok {id : Text} {f : Sheet → Sheet}
    (h : p.changeSheet id f = .ok q) :
    (∃ s ∈ p.sheets, s.id = id)
      ∧ q = ⟨changeFirst id f p.sheets, p.tables⟩ := by
  unfold changeSheet at h
  split at h
  next => cases h
  next s hs =>
      injection h with hq
      exact ⟨⟨s,
        List.mem_of_find?_eq_some hs, by simpa using List.find?_some hs⟩,
          hq.symm⟩

theorem tables_changeSheet {id : Text} {f : Sheet → Sheet}
    (h : p.changeSheet id f = .ok q) :
    q.tables = p.tables := by
  rw [(changeSheet_eq_ok h).2]

theorem has_changeSheet {id : Text} {f : Sheet → Sheet}
    (h : p.changeSheet id f = .ok q) (t : Text) : q.Has t ↔ p.Has t := by
  unfold Has table?
  rw [tables_changeSheet h]

/-- A sheet that is added was not there before. -/
theorem addSheet_eq_ok {id name : Text} (h : p.addSheet id name = .ok q) :
    (∀ s ∈ p.sheets, s.id ≠ id)
      ∧ q = ⟨p.sheets ++ [⟨id, name, []⟩], p.tables⟩ := by
  unfold addSheet at h
  split at h
  next => cases h
  next hs =>
      injection h with hq
      exact ⟨by simpa using List.find?_eq_none.1 hs, hq.symm⟩

theorem tables_addSheet {id name : Text} (h : p.addSheet id name = .ok q) :
    q.tables = p.tables := by
  rw [(addSheet_eq_ok h).2]

theorem has_addSheet {id name : Text} (h : p.addSheet id name = .ok q)
    (t : Text) :
    q.Has t ↔ p.Has t := by
  unfold Has table?
  rw [tables_addSheet h]

/-- A table that is added was not there before, and its sheet was. -/
theorem addTable_eq_ok {new : Table} (h : p.addTable new = .ok q) :
    p.table? new.id = none ∧ (∃ s ∈ p.sheets, s.id = new.sheetId)
      ∧ q = ⟨changeFirst new.sheetId (fun s => { s with
          tableIds := s.tableIds ++ [new.id] }) p.sheets,
        p.tables.insert new.id new⟩ := by
  unfold addTable at h
  cases hp : p.table? new.id with
  | some old =>
      rw [hp] at h
      cases h
  | none =>
      rw [hp] at h
      cases hsheet : p.changeSheet new.sheetId
          fun s => { s with tableIds := s.tableIds ++ [new.id] } with
      | error e =>
          simp only [hsheet] at h
          cases h
      | ok p' =>
          simp only [hsheet] at h
          injection h with hq
          obtain ⟨hfound, hp'⟩ := changeSheet_eq_ok hsheet
          exact ⟨rfl, hfound, by rw [← hq, hp']⟩

theorem tables_addTable {new : Table} (h : p.addTable new = .ok q) :
    p.table? new.id = none ∧ q.tables = p.tables.insert new.id new := by
  obtain ⟨hnone, -, hq⟩ := addTable_eq_ok h
  exact ⟨hnone, by rw [hq]⟩

/-- A table that is added is the only one that comes. -/
theorem has_addTable {new : Table} (h : p.addTable new = .ok q) :
    ¬p.Has new.id ∧ ∀ t, q.Has t ↔ p.Has t ∨ new.id = t := by
  obtain ⟨hnone, hq⟩ := tables_addTable h
  unfold Has table? at *
  refine ⟨by rw [hnone]; simp, ?_⟩
  intro t
  rw [hq, SortedMap.get?_insert_eq]
  split
  case isTrue heq => simp [heq]
  case isFalse heq => rw [or_iff_left heq]

end Project

-- ============================================================== commands

namespace Command

open Project (Has)

variable {p q : Project}

/-- The table that a command creates. -/
def created? : Command → Option Text
  | createTable new => some new.tableId
  | createSummary new => some new.tableId
  | _ => none

/-- A command that creates a table is about that table. -/
theorem tableId?_of_created? {c : Command} {id : Text}
    (h : c.created? = some id) :
    c.tableId? = some id := by
  cases c with
  | createTable new => exact h
  | createSummary new => exact h
  | _ => cases h

/-- A summary is added like any other table. -/
theorem addTable_of_createSummary {new : NewSummary}
    (h : (createSummary new).apply p = .ok q) :
    p.addTable new.table = .ok q := by
  cases hsource : p.table? new.source with
  | none =>
      simp only [apply, hsource] at h
      cases h
  | some source =>
      simp only [apply, hsource] at h
      exact h

/-- What a command creates is new, and nothing else comes or goes. -/
theorem has_apply {c : Command} (h : c.apply p = .ok q) :
    (∀ t ∈ c.created?, ¬p.Has t) ∧ ∀ t, q.Has t
      ↔ p.Has t ∨ c.created? = some t := by
  have hold : (∀ t, q.Has t ↔ p.Has t) → c.created? = none →
      (∀ t ∈ c.created?, ¬p.Has t) ∧ ∀ t, q.Has t
        ↔ p.Has t ∨ c.created? = some t := by
    intro hsame hnone
    rw [hnone]
    refine ⟨fun t ht => (by cases ht), ?_⟩
    intro t
    rw [hsame t]
    simp only [reduceCtorEq, or_false]
  have hnew : ∀ new : Table, c.created? = some new.id →
      p.addTable new = .ok q →
      (∀ t ∈ c.created?, ¬p.Has t) ∧ ∀ t, q.Has t
        ↔ p.Has t ∨ c.created? = some t := by
    intro new hcreated hadd
    obtain ⟨hfresh, hhas⟩ := Project.has_addTable hadd
    rw [hcreated]
    refine ⟨?_, ?_⟩
    · rintro t ⟨⟩
      exact hfresh
    · intro t
      rw [hhas t, Option.some.injEq]
  cases c with
  | createSheet id name => exact hold (Project.has_addSheet h) rfl
  | renameSheet id name => exact hold (Project.has_changeSheet h) rfl
  | createTable new => exact hnew new.table rfl h
  | createSummary new => exact hnew new.table rfl (addTable_of_createSummary h)
  | script lines =>
      injection h with hq
      exact hold (fun t => by rw [hq]) rfl
  | _ => exact hold (Project.has_changeTable h).2 rfl

/-- A command about a table that it does not create needs the table. -/
theorem has_of_apply {c : Command} (h : c.apply p = .ok q) {id : Text}
    (hid : c.tableId? = some id) (hcreated : c.created? = none) :
    p.Has id := by
  cases c with
  | createSheet => cases hid
  | renameSheet => cases hid
  | createTable => cases hcreated
  | createSummary => cases hcreated
  | script => cases hid
  | _ =>
      injection hid with hid
      exact hid ▸ (Project.has_changeTable h).1

end Command

/-- No table is lost in a replay. -/
theorem Project.Has.replay {p q : Project} {cs : List Command}
    (h : p.replay cs = .ok q) {t : Text} (ht : p.Has t) : q.Has t := by
  induction cs generalizing p with
  | nil =>
      injection h with hpq
      exact hpq ▸ ht
  | cons c cs ih =>
      obtain ⟨p', hc, hrest⟩ := Project.exists_replay_of_append (a := [c]) h
      rw [Project.replay_singleton] at hc
      exact ih hrest (((Command.has_apply hc).2 t).2 (Or.inl ht))

/-- Tables that are told apart after a replay were told apart before. -/
theorem Project.DistinctNames.of_replay {p q : Project} {cs : List Command}
    (h : p.replay cs = .ok q) (hq : q.DistinctNames) : p.DistinctNames :=
  fun a b ha hb => hq a b (ha.replay h) (hb.replay h)

end GridScript
