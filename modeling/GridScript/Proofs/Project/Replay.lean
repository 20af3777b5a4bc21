/-
What commands do one after the other. A list of commands is replayed from
a project; the replay stops at the first command that is refused.

A cell edit in a transaction is merged into the edit before it, so the log
does not hold the commands that were given (`Transaction.record_cases`). It
replays to the same project all the same: `replay_record` says so of one
more command, and that is all that the log's own operations ever do.
-/
import GridScript.Command.Apply
import GridScript.Command.Transaction
import GridScript.Proofs.Except
import GridScript.Proofs.Project.Cells

namespace GridScript

namespace Project

/-- The project after commands, each applied to what the ones before it
left; the refusal of the first one that is refused. -/
def replay (p : Project) (cs : List Command) : Except ProjectError Project :=
  cs.foldlM Command.apply p

@[simp] theorem replay_nil (p : Project) : p.replay [] = .ok p := rfl

theorem replay_singleton (p : Project) (c : Command) :
    p.replay [c] = c.apply p := by
  unfold replay
  rw [List.foldlM_cons]
  cases c.apply p <;> rfl

/-- Commands in a row are replayed in a row. -/
theorem replay_append {p q r : Project} {a b : List Command}
    (ha : p.replay a = .ok q) (hb : q.replay b = .ok r) :
    p.replay (a ++ b) = .ok r := by
  unfold replay at ha hb ⊢
  rw [List.foldlM_append, ha]
  exact hb

/-- A replay that succeeds succeeds up to any point. -/
theorem exists_replay_of_append {p r : Project} {a b : List Command}
    (h : p.replay (a ++ b) = .ok r) :
    ∃ q, p.replay a = .ok q ∧ q.replay b = .ok r := by
  unfold replay at h ⊢
  rw [List.foldlM_append] at h
  exact exists_of_bind_eq_ok h

/-- Two changes of one table are one change of it. -/
theorem changeTable_changeTable {p q : Project} {id : Text} {f : Table → Table}
    (h : p.changeTable id f = .ok q) (g : Table → Table) :
    q.changeTable id g = p.changeTable id (g ∘ f) := by
  unfold changeTable at h ⊢
  cases hp : p.table? id with
  | none =>
      rw [hp] at h
      cases h
  | some t =>
      rw [hp] at h
      injection h with hq
      have hfound : q.table? id = some (f t) := by
        rw [← hq]
        unfold table?
        rw [SortedMap.get?_insert_eq, if_pos rfl]
      rw [hfound, ← hq]
      simp only [SortedMap.insert_insert, Function.comp_apply]

end Project

-- ============================================================== merging

/-- Two commands are merged if they write cells of one table. -/
theorem Command.merge?_cases {first later merged : Command}
    (h : first.merge? later = some merged) :
    ∃ id cells others, first = .setCells id cells ∧ later = .setCells id others
      ∧ merged = .setCells id
        (others.entries.foldl (fun m (c, v) => m.insert c v) cells) := by
  unfold merge? at h
  split at h
  next id cells id' others =>
      split at h
      case isFalse => cases h
      case isTrue hid =>
          injection h with hmerged
          exact ⟨id, cells, others, rfl, hid ▸ rfl, hmerged.symm⟩
  next => cases h

/-- One more command either comes last or is merged into the last. -/
theorem Transaction.mergeLast_cases (c : Command) (cs : List Command) :
    mergeLast c cs = cs ++ [c]
      ∨ ∃ before last merged, cs = before ++ [last]
        ∧ last.merge? c = some merged
        ∧ mergeLast c cs = before ++ [merged] := by
  induction cs with
  | nil => exact Or.inl rfl
  | cons first rest ih =>
      cases rest with
      | nil =>
          unfold mergeLast
          cases hmerge : first.merge? c with
          | some merged => exact Or.inr ⟨[], first, merged, rfl, hmerge, rfl⟩
          | none => exact Or.inl rfl
      | cons second rest =>
          have hkept : mergeLast c (first :: second :: rest)
              = first :: mergeLast c (second :: rest) := rfl
          rcases ih with hlast | ⟨before, last, merged, hrest, hmerge, hlast⟩
          · left
            rw [hkept, hlast]
            rfl
          · right
            refine ⟨first :: before, last, merged, ?_, hmerge, ?_⟩
            · rw [hrest]
              rfl
            · rw [hkept, hlast]
              rfl

/-- So it is in a transaction of either kind. -/
theorem Transaction.record_cases (t : Transaction) (c : Command) :
    (t.record c).commands = t.commands ++ [c]
      ∨ ∃ before last merged, t.commands = before ++ [last]
        ∧ last.merge? c = some merged
        ∧ (t.record c).commands = before ++ [merged] := by
  unfold record
  cases t.kind with
  | general => exact Or.inl rfl
  | cellEdit => exact mergeLast_cases c t.commands

/-- A merged command does what the two did. -/
theorem Command.apply_merge {first later merged : Command}
    (h : first.merge? later = some merged) {p q : Project}
    (hfirst : first.apply p = .ok q) :
    merged.apply p = later.apply q := by
  obtain ⟨id, cells, others, rfl, rfl, rfl⟩ := merge?_cases h
  have hfirst : p.changeTable id (fun t => t.writeAll cells.entries) = .ok q :=
    hfirst
  have hlater :=
    Project.changeTable_changeTable hfirst fun t => t.writeAll others.entries
  have hboth := funext fun t : Table => Table.writeAll_merged t cells others
  exact (congrArg (p.changeTable id) hboth).trans hlater.symm

/-- Recording one more command is replayed as the command by itself. -/
theorem Project.replay_record {p q r : Project} {t : Transaction} {c : Command}
    (ht : p.replay t.commands = .ok q) (hc : c.apply q = .ok r) :
    p.replay (t.record c).commands = .ok r := by
  rcases t.record_cases c
    with hlast | ⟨before, last, merged, hcommands, hmerge, hlast⟩ <;>
    rw [hlast]
  · exact replay_append ht (by rwa [replay_singleton])
  · rw [hcommands] at ht
    obtain ⟨s, hs, hqs⟩ := exists_replay_of_append ht
    rw [replay_singleton] at hqs
    exact replay_append hs
      (by rwa [replay_singleton, Command.apply_merge hmerge hqs])

-- ==================================================== commands of a log

namespace Log

/-- The commands of the committed transactions. -/
def commands (l : Log) : List Command :=
  l.committed.flatMap Transaction.commands

/-- The commands of the active transaction. -/
def activeCommands (l : Log) : List Command :=
  l.active.elim [] Transaction.commands

/-- The lines of a log that was made of lines. -/
theorem lines_ofLines (ls : List Text) : (ofLines ls).lines = ls := by
  unfold ofLines
  cases ls with
  | nil => rfl
  | cons l ls =>
      show (l :: ls) ++ [] ++ [] = _
      rw [List.append_nil, List.append_nil]

theorem active_ofLines (ls : List Text) : (ofLines ls).active = none := by
  unfold ofLines
  split <;> rfl

end Log

end GridScript
