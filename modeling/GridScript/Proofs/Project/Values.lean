/-
The value of a cell. Without formulas, what a cell holds is what was
written to it last, so it can be told from the commands alone: list what
each of them writes to the cell and take the last (`valueAt_replay`). The
creation of a table writes nothing, and clearing a cell is writing an
empty value to it.
-/
import GridScript.Proofs.Project.Tables

namespace GridScript

namespace Command

/-- The command sets no formula, and it is no lines that are in the script
already. -/
def Plain : Command → Prop
  | setFormula .. => False
  | script _ => False
  | _ => True

instance : DecidablePred Plain
  | setFormula .. => .isFalse id
  | script _ => .isFalse id
  | createSheet .. | renameSheet .. | createTable _ | createSummary
    _ | moveTable .. => .isTrue ⟨⟩
  | resizeTable .. | minimizeTable .. | setBands .. | setCells .. | setRange
    .. => .isTrue ⟨⟩
  | insertRows .. | insertCols .. | setColumnType .. => .isTrue ⟨⟩

/-- What a command writes to the cells of a table, in the order in which it
is applied. -/
def writes (id : Text) : Command → List (Cell × Value)
  | setCells id' cells => if id' = id then cells.entries else []
  | setRange id' start values =>
      if id' = id then rangeCells start values else []
  | _ => []

/-- The values that a command writes to a cell of a table. -/
def valuesAt (id : Text) (cell : Cell) (c : Command) : List Value :=
  valuesFor cell (c.writes id)

end Command

namespace Project

variable {p q : Project} {id : Text} {cell : Cell}

/-- The value that a cell of a table holds. -/
def valueAt (p : Project) (id : Text) (cell : Cell) : Value :=
  ((p.table? id).bind fun t => t.value? cell).getD .empty

theorem valueAt_congr (h : q.tables = p.tables) :
    q.valueAt id cell = p.valueAt id cell := by
  unfold valueAt table?
  rw [h]

theorem getD_stored (v : Value) : v.stored.getD .empty = v := by
  cases v <;> rfl

/-- A cell of a table that is written to holds the last value that it is
given. -/
theorem valueAt_changeTable {id' : Text} {f : Table → Table}
    (es : List (Cell × Value)) (hf : ∀ t, (f t).cells = (t.writeAll es).cells)
    (h : p.changeTable id' f = .ok q) :
    q.valueAt id cell
      = ((valuesFor cell (if id' = id then es else [])).getLast?).getD
        (p.valueAt id cell) := by
  obtain ⟨t, ht, hq⟩ := tables_changeTable h
  unfold valueAt table? at *
  rw [hq, SortedMap.get?_insert_eq]
  by_cases hid : id' = id
  · rw [if_pos hid, if_pos hid, ← hid, ht]
    unfold Table.value?
    rw [Option.bind_some, Option.bind_some, hf, Table.get?_writeAll,
      lastEntry_eq_getLast?, Option.or_none]
    cases (valuesFor cell es).getLast? with
    | none => rfl
    | some v => exact getD_stored v
  · rw [if_neg hid, if_neg hid]
    rfl

/-- A new table holds nothing, as if it had been there before. -/
theorem valueAt_addTable {new : Table} (hempty : new.cells = .empty)
    (h : p.addTable new = .ok q) :
    q.valueAt id cell = p.valueAt id cell := by
  obtain ⟨hnone, hq⟩ := tables_addTable h
  unfold valueAt table? at *
  rw [hq, SortedMap.get?_insert_eq]
  split
  case isTrue hid =>
      rw [← hid, hnone, Option.bind_some]
      unfold Table.value?
      rw [hempty]
      rfl
  case isFalse => rfl

/-- A plain command leaves in a cell the last value that it writes there. -/
theorem valueAt_apply {c : Command} (hplain : c.Plain)
    (h : c.apply p = .ok q) :
    q.valueAt id cell
      = ((c.valuesAt id cell).getLast?).getD (p.valueAt id cell) := by
  have hkept : ∀ {id' : Text} {f : Table → Table},
      p.changeTable id' f = .ok q →
      (∀ t, (f t).cells = t.cells) →
        q.valueAt id cell = p.valueAt id cell := by
    intro id' f hchange hf
    have hvalue : q.valueAt id cell = _ := valueAt_changeTable [] hf hchange
    rw [ite_self] at hvalue
    exact hvalue
  cases c with
  | createSheet id' name => exact valueAt_congr (tables_addSheet h)
  | renameSheet id' name => exact valueAt_congr (tables_changeSheet h)
  | createTable new => exact valueAt_addTable rfl h
  | createSummary new =>
      exact valueAt_addTable rfl (Command.addTable_of_createSummary h)
  | setCells id' cells =>
      exact valueAt_changeTable cells.entries (fun t => rfl) h
  | setRange id' start values =>
      exact valueAt_changeTable (Command.rangeCells start values)
        (fun t => rfl) h
  | setFormula id' target formula => exact hplain.elim
  | script lines => exact hplain.elim
  | _ => exact hkept h fun t => rfl

/-- After plain commands a cell holds the last value that they write to
it. -/
theorem valueAt_replay {cs : List Command} (hplain : ∀ c ∈ cs, c.Plain)
    (h : p.replay cs = .ok q) :
    q.valueAt id cell
      = ((cs.flatMap (Command.valuesAt id cell)).getLast?).getD
        (p.valueAt id cell) := by
  induction cs generalizing p with
  | nil =>
      injection h with hpq
      rw [hpq]
      rfl
  | cons c cs ih =>
      obtain ⟨p', hc, hrest⟩ := exists_replay_of_append (a := [c]) h
      rw [replay_singleton] at hc
      rw [ih (fun d hd => hplain d (List.mem_cons_of_mem c hd)) hrest,
        valueAt_apply (hplain c List.mem_cons_self) hc, List.flatMap_cons,
        List.getLast?_append]
      cases (cs.flatMap (Command.valuesAt id cell)).getLast? <;> rfl

-- ============================================================== creation

/-- No command that was replayed is about a table that is not there. -/
theorem tableId?_of_replay {cs : List Command} (h : p.replay cs = .ok q)
    (hq : ¬q.Has id) :
    ∀ c ∈ cs, c.tableId? ≠ some id := by
  induction cs generalizing p with
  | nil => exact fun c hc => by cases hc
  | cons c cs ih =>
      obtain ⟨p', hc, hrest⟩ := exists_replay_of_append (a := [c]) h
      rw [replay_singleton] at hc
      refine List.forall_mem_cons.2 ⟨?_, ih hrest⟩
      intro hid
      refine hq (Project.Has.replay hrest (((Command.has_apply hc).2 id).2 ?_))
      cases hcreated : c.created? with
      | none => exact Or.inl (Command.has_of_apply hc hid hcreated)
      | some t =>
          right
          rw [← Command.tableId?_of_created? hcreated, hid]

/-- A table that is there in the end was created on the way, and no command
before was about it. -/
theorem exists_creation {cs : List Command} (h : p.replay cs = .ok q)
    (hp : ¬p.Has id) (hq : q.Has id) :
    ∃ before c after, cs = before ++ c :: after ∧ c.created? = some id
      ∧ ∀ d ∈ before, d.tableId? ≠ some id := by
  induction cs generalizing p with
  | nil =>
      injection h with hpq
      exact absurd (hpq ▸ hq) hp
  | cons c cs ih =>
      obtain ⟨p', hc, hrest⟩ := exists_replay_of_append (a := [c]) h
      by_cases hcreated : c.created? = some id
      · exact ⟨[], c, cs, rfl, hcreated, fun d hd => by cases hd⟩
      · have hfirst := hc
        rw [replay_singleton] at hc
        have hp' : ¬p'.Has id := fun hhas =>
          (((Command.has_apply hc).2 id).1 hhas).elim hp hcreated
        obtain ⟨before, d, after, rfl, hd, hbefore⟩ := ih hrest hp'
        refine ⟨c :: before, d, after, rfl, hd,
          List.forall_mem_cons.2 ⟨?_, hbefore⟩⟩
        exact tableId?_of_replay hfirst hp' c List.mem_cons_self

end Project

end GridScript
