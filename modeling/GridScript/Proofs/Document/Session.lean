/-
The results of one document's runs, in whatever order they come. Runs may
be begun while others are under way, the document may be changed at any
time, and a result may come late, twice, or for a run that has long been
followed by another. Only the first result of the newest run counts
(`applyResult_session`); every other one is answered with false and leaves
no trace.

# The invariant

A session keeps a record that the document does not have: each ticket with
the script that its run was begun with, and which results have come.
`Consistent` ties the document to the record. The tickets are those that
the counter has given, so that the newest is the current one; and the
document waits for a run exactly if nothing has come for the newest. A
result that counts is taken from this slot, which is then empty until the
next run is begun, so the same ticket finds nothing a second time.
-/
import GridScript.Proofs.Document.Results

namespace GridScript

/-- A failure is handed on, and a project that was reported takes the place
of the project. -/
theorem Document.take_eq {d : Document} (h : d.Checked) (run : PendingRun)
    (result : Except RunError RunOutput) :
    d.take run result
      = match result with
        | .error e => (.error e, { d with pending := none })
        | .ok output =>
          (.ok true,
            { d with
              project := output.project
              log := .ofLines (History.ofScript run.script).commands
              checkpoint := none
              pending := none }) := by
  cases result with
  | error e => rfl
  | ok output => exact take_ok h

/-- A document with the record of its runs. -/
structure Session where
  document : Document
  counters : RunCounters
  /-- The tickets that were issued, the first one first, each with the
  script as it was then. -/
  issued : List (RunTicket × Text)
  /-- The tickets that a result has come for, by their places in `issued`. -/
  delivered : List Nat

namespace Session

open Document (Origin Change KeepsRuns)

/-- What happens to a document and its runs. -/
inductive Event where
  | change (c : Change)
  | beginRun
  /-- A result comes for the ticket at a place of the record. -/
  | deliver (n : Nat) (result : Except RunError RunOutput)

/-- A document without runs, beside others that have counters already. -/
def start (cs : RunCounters) (o : Origin) : Session :=
  ⟨o.document cs.fresh, cs.add, [], []⟩

/-- The session after an event. -/
def next (s : Session) : Event → Session
  | .change c => { s with document := s.document.change c }
  | .beginRun =>
    let (t, d, cs) := s.document.beginRun s.counters
    { s with
      document := d
      counters := cs
      issued := s.issued ++ [(t, s.document.script)] }
  | .deliver n result =>
    match s.issued[n]? with
    | some (t, _) =>
      { s with
        document := (s.document.applyResult s.counters t result).2
        delivered := n :: s.delivered }
    | none => s

theorem next_deliver {s : Session} {n : Nat} (hn : n < s.issued.length)
    (result : Except RunError RunOutput) :
    s.next (.deliver n result)
      = { s with
          document :=
            (s.document.applyResult s.counters s.issued[n].1 result).2
          delivered := n :: s.delivered } := by
  unfold next
  simp only [List.getElem?_eq_getElem hn]

/-- There is no result for a run that was not begun. -/
theorem next_deliver_of_le {s : Session} {n : Nat} (hn : s.issued.length ≤ n)
    (result : Except RunError RunOutput) : s.next (.deliver n result) = s := by
  unfold next
  simp only [List.getElem?_eq_none hn]

/-- The session after events in a row. -/
def after (s : Session) (es : List Event) : Session := es.foldl next s

-- ========================================================= the invariant

/-- The document knows of its runs what the record says. -/
structure Consistent (s : Session) : Prop where
  has : s.counters.Has s.document.counter
  issued : s.issued.map Prod.fst = s.counters.given s.document.counter
  delivered : ∀ n ∈ s.delivered, n < s.issued.length
  /-- Nothing has come for the newest run, and the document waits for it. -/
  waiting : ∀ n, ∀ h : n < s.issued.length, n + 1 = s.issued.length →
    n ∉ s.delivered → s.document.pending = some ⟨n + 1, s.issued[n].2⟩
  /-- A result has come, or there is no run, and it waits for none. -/
  idle : (∀ n, n + 1 = s.issued.length → n ∈ s.delivered) →
    s.document.pending = none
  checked : s.document.Checked

namespace Consistent

variable {s : Session}

theorem length_given (h : s.Consistent) :
    (s.counters.given s.document.counter).length = s.issued.length := by
  rw [← h.issued, List.length_map]

theorem ticket_eq (h : s.Consistent) {n : Nat} (hn : n < s.issued.length) :
    s.issued[n].1 = ⟨s.document.counter, n + 1⟩ := by
  have hgiven : n < (s.counters.given s.document.counter).length := by
    rw [h.length_given]
    exact hn
  have hmap : n < (s.issued.map Prod.fst).length := by
    rw [List.length_map]
    exact hn
  calc s.issued[n].1
      = (s.issued.map Prod.fst)[n] := List.getElem_map Prod.fst |>.symm
    _ = (s.counters.given s.document.counter)[n] := by simp only [h.issued]
    _ = ⟨s.document.counter, n + 1⟩ := RunCounters.getElem_given hgiven

/-- The first result of the newest run is taken, and any other is not. -/
theorem applyResult (h : s.Consistent) {n : Nat} (hn : n < s.issued.length)
    (result : Except RunError RunOutput) :
    s.document.applyResult s.counters s.issued[n].1 result
      = if n + 1 = s.issued.length ∧ n ∉ s.delivered then
          s.document.take ⟨n + 1, s.issued[n].2⟩ result
        else (.ok false, s.document) := by
  rw [Document.applyResult_eq, h.ticket_eq hn]
  simp only [RunCounters.isCurrent_iff, h.length_given]
  by_cases hnewest : n + 1 = s.issued.length
  · by_cases hcome : n ∈ s.delivered
    · have hpending : s.document.pending = none := by
        refine h.idle fun m hm => ?_
        have hsame : m = n := by omega
        exact hsame ▸ hcome
      rw [hpending, if_neg fun hboth => hboth.2 hcome]
    · rw [h.waiting n hn hnewest hcome, if_pos ⟨hnewest, hcome⟩]
      exact if_pos ⟨hnewest, rfl⟩
  · rw [if_neg fun hboth => hnewest hboth.1]
    cases s.document.pending with
    | none => rfl
    | some run => exact if_neg fun hboth => hnewest hboth.1

theorem change (h : s.Consistent) (c : Change) :
    (s.next (.change c)).Consistent := by
  have hkeeps := KeepsRuns.change s.document c
  refine ⟨?_, ?_, h.delivered, ?_, ?_, hkeeps.checked h.checked⟩
  · show s.counters.Has (s.document.change c).counter
    rw [hkeeps.counter]
    exact h.has
  · show s.issued.map Prod.fst = s.counters.given (s.document.change c).counter
    rw [hkeeps.counter]
    exact h.issued
  · intro n hn hnewest hcome
    exact hkeeps.pending.trans (h.waiting n hn hnewest hcome)
  · intro hall
    exact hkeeps.pending.trans (h.idle hall)

/-- A run that is begun is the newest, and nothing has come for it. -/
theorem beginRun (h : s.Consistent) : (s.next .beginRun).Consistent := by
  have hlength := h.length_given
  rw [RunCounters.length_given] at hlength
  refine ⟨RunCounters.has_advance.2 h.has, ?_, ?_, ?_, ?_, h.checked⟩
  · show (s.issued
      ++ [(s.counters.nextTicket s.document.counter, s.document.script)]).map
        Prod.fst
      = (s.counters.advance s.document.counter).given s.document.counter
    rw [List.map_append, h.issued, RunCounters.given_advance h.has]
    rfl
  · intro n hn
    have hold := h.delivered n hn
    show n < (s.issued ++ [_]).length
    rw [List.length_append]
    omega
  -- the newest run is the one that has just begun
  · intro n hn hnewest _
    have hplace : n = s.issued.length := by
      have hlast : n + 1 = (s.issued ++ [_]).length := hnewest
      rw [List.length_append, List.length_singleton] at hlast
      omega
    subst hplace
    show some _ = some _
    simp only [next, Document.beginRun, RunCounters.nextTicket, hlength,
      List.getElem_concat_length]
  -- no result can have come for it
  · intro hall
    have hcome : s.issued.length ∈ s.delivered := by
      refine hall s.issued.length ?_
      show _ = (s.issued ++ [_]).length
      rw [List.length_append, List.length_singleton]
    exact absurd (h.delivered _ hcome) (Nat.lt_irrefl _)

/-- A result that comes is recorded, whether it counts or not. -/
theorem deliver (h : s.Consistent) (n : Nat)
    (result : Except RunError RunOutput) :
    (s.next (.deliver n result)).Consistent := by
  by_cases hn : n < s.issued.length
  case neg =>
      rw [next_deliver_of_le (Nat.le_of_not_lt hn)]
      exact h
  case pos =>
      have hrecorded : ∀ m ∈ n :: s.delivered, m < s.issued.length :=
        List.forall_mem_cons.2 ⟨hn, h.delivered⟩
      rw [next_deliver hn, h.applyResult hn result]
      by_cases hcounts : n + 1 = s.issued.length ∧ n ∉ s.delivered
      -- the first result of the newest run ends the waiting
      · rw [if_pos hcounts]
        have hcounter :=
          Document.counter_take s.document ⟨n + 1, s.issued[n].2⟩ result
        refine ⟨?_, ?_, hrecorded, ?_,
          fun _ => Document.pending_take _ _ result,
          Document.checked_take _ result h.checked⟩
        · rw [hcounter]
          exact h.has
        · rw [hcounter]
          exact h.issued
        · intro m _ hnewest hnot
          have hsame : m = n :=
            Nat.add_right_cancel (hnewest.trans hcounts.1.symm)
          exact absurd (hsame ▸ List.mem_cons_self) hnot
      · rw [if_neg hcounts]
        -- for the newest run nothing more has come than before
        have hsame : ∀ m, m + 1 = s.issued.length →
            (m ∈ n :: s.delivered ↔ m ∈ s.delivered) := by
          intro m hm
          rw [List.mem_cons, or_iff_right_iff_imp]
          rintro rfl
          exact Decidable.byContradiction fun hnot => hcounts ⟨hm, hnot⟩
        refine ⟨h.has, h.issued, hrecorded, ?_, ?_, h.checked⟩
        · intro m hm hnewest hnot
          exact h.waiting m hm hnewest fun hold =>
            hnot ((hsame m hnewest).2 hold)
        · intro hall
          exact h.idle fun m hm => (hsame m hm).1 (hall m hm)

theorem next (h : s.Consistent) (e : Event) : (s.next e).Consistent := by
  cases e with
  | change c => exact h.change c
  | beginRun => exact h.beginRun
  | deliver n result => exact h.deliver n result

theorem after (h : s.Consistent) (es : List Event) :
    (s.after es).Consistent := by
  induction es generalizing s with
  | nil => exact h
  | cons e es ih => exact ih (h.next e)

end Consistent

/-- Before the first run the record is empty. -/
theorem consistent_start (cs : RunCounters) (o : Origin) :
    (start cs o).Consistent where
  has := by
    show cs.add.Has (o.document cs.fresh).counter
    rw [Document.counter_document]
    exact cs.has_add_fresh
  issued := by
    show [] = cs.add.given (o.document cs.fresh).counter
    rw [Document.counter_document, RunCounters.given_add,
      RunCounters.given_fresh]
  delivered := fun n hn => by cases hn
  waiting := fun n hn => by cases hn
  idle := fun _ => Document.pending_document cs.fresh o
  checked := Document.checked_document cs.fresh o

-- ======================================================== the theorem

/-- A result counts if it is the first that comes for the newest run of a
document. A failure is then handed on, and the document no longer waits
for the run; a project that was reported takes the place of the project,
no transaction is active any more, the log is the one of the script that
the run was begun with, and the script stays. Any other result changes
nothing. -/
theorem applyResult_session (cs : RunCounters) (o : Origin) (es : List Event) :
    let s := (start cs o).after es
    ∀ (n : Fin s.issued.length) (result : Except RunError RunOutput),
      s.document.applyResult s.counters s.issued[n].1 result
        = if n + 1 = s.issued.length ∧ n.val ∉ s.delivered then
            match result with
            | .error e => (.error e, { s.document with pending := none })
            | .ok output =>
              (.ok true,
                { s.document with
                  project := output.project
                  log := .ofLines (History.ofScript s.issued[n].2).commands
                  checkpoint := none
                  pending := none })
          else (.ok false, s.document) := by
  intro s n result
  have h : s.Consistent := (consistent_start cs o).after es
  rw [show s.issued[n].1 = s.issued[n.val].1 from rfl,
    h.applyResult n.isLt result]
  split
  case isFalse => rfl
  case isTrue => exact Document.take_eq h.checked _ result

end Session

end GridScript
