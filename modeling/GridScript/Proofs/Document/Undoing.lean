/-
Undone and failed work leaves no trace. A transaction that is begun, filled
with whatever commands, and aborted gives back the very document that it
was begun on; and so does a command that is executed by itself and does not
go through, whether it is refused or does nothing.

# The invariant

In a transaction a document differs from the one that it was begun on in
its project and in what is recorded, and in nothing else, and the
checkpoint is the project of the beginning (`Within`). Beginning and
executing are refused in the meantime, and so none of them takes a later
checkpoint.

To abort gives the log back with nothing active, and the document without a
checkpoint. This is how the document was at the beginning, because a
checkpoint goes with its transaction in every document that is reached
(`Reached.checked`).
-/
import GridScript.Proofs.Document.UserPart

namespace GridScript.Document

-- ================================================== reachable documents

/-- A document that is made or opened, edited, worked on, run, and saved,
in any order. -/
inductive Reached : Document → Prop
  | start (counter : Nat) (o : Origin) : Reached (o.document counter)
  | work {d : Document} (w : Work) : Reached d → Reached (d.work w)
  | edit {d : Document} (script : Text) : Reached d → Reached (d.edit script)
  | saved {d : Document} (path : Path) :
      Reached d → Reached { d with path := some path, modified := false }

theorem Checked.work {d : Document} (h : d.Checked) (w : Work) :
    (d.work w).Checked := by
  cases w with
  | action a => exact (KeepsRuns.change d (.action a)).checked h
  | beginRun cs => exact h
  | result cs t result =>
      show (d.applyResult cs t result).2.Checked
      rw [applyResult_eq]
      split
      next run _ =>
          split
          case isTrue => exact checked_take run result h
          case isFalse => exact h
      next => exact h

theorem Reached.checked {d : Document} (h : Reached d) : d.Checked := by
  induction h with
  | start counter o => exact checked_document counter o
  | work w _ ih => exact ih.work w
  | edit script _ ih => exact (KeepsRuns.edit _ script).checked ih
  | saved path _ ih => exact ih

-- ======================================================== transactions

/-- What may be tried in a transaction that is then aborted. -/
inductive Attempt where
  | record (c : Command)
  | begin (kind : TransactionKind)
  | execute (c : Command)

/-- The action that is tried. -/
def Attempt.action : Attempt → Action
  | record c => .record c
  | begin kind => .begin kind
  | execute c => .execute c

/-- The second document is in a transaction that was begun on the first. -/
def Within (d e : Document) : Prop :=
  ∃ p t, e = { d with
    project := p
    log := ⟨d.log.committed, some t⟩
    checkpoint := some d.project }

section Within

variable {d e : Document}

theorem within_begun (d : Document) (kind : TransactionKind) :
    Within d (d.begun kind) :=
  ⟨d.project, ⟨kind, []⟩, rfl⟩

theorem Within.isActive (h : Within d e) : e.log.isActive = true := by
  obtain ⟨p, t, rfl⟩ := h
  rfl

/-- Nothing that is tried leaves the transaction. -/
theorem Within.perform (h : Within d e) (a : Attempt) :
    Within d (e.perform a.action) := by
  cases a with
  | record c =>
      show Within d (e.record c).2
      rcases e.record_cases c with ⟨-, hsame⟩ | ⟨t, p, -, -, hrecord⟩
      · rwa [hsame]
      · rw [hrecord]
        obtain ⟨_, _, rfl⟩ := h
        exact ⟨p, t.record c, rfl⟩
  | begin kind =>
      show Within d (e.begin kind).2
      rcases e.begin_cases kind with ⟨-, hbegin⟩ | ⟨hidle, -⟩
      · rwa [hbegin]
      -- one transaction is active, so no other is begun
      · have hactive := h.isActive
        unfold Log.isActive at hactive
        rw [hidle] at hactive
        cases hactive
  | execute c =>
      show Within d (e.execute c).2
      have hactive := h.isActive
      unfold Log.isActive at hactive
      rcases e.execute_cases c
        with ⟨-, hsame, -⟩ | ⟨-, -, hidle⟩ | ⟨p, hidle, -, -⟩
      · rwa [hsame]
      all_goals
        rw [hidle] at hactive
        cases hactive

theorem Within.performAll (h : Within d e) (as : List Attempt) :
    Within d (e.performAll (as.map Attempt.action)) := by
  induction as generalizing e with
  | nil => exact h
  | cons a as ih => exact ih (h.perform a)

/-- Without a transaction, and with the checkpoint gone with it, a document
is as settled as it can be. -/
theorem settled_of_idle (hchecked : d.Checked) (hidle : d.log.active = none) :
    d.settled = d := by
  have hnone := hchecked.checkpoint_eq hidle
  unfold settled
  rw [← hidle, ← hnone]

/-- To abort leads back to where the transaction was begun. -/
theorem Within.abort (h : Within d e) : e.abort = d.settled := by
  obtain ⟨p, t, rfl⟩ := h
  exact abort_of_active _ rfl

end Within

-- ======================================================== the theorem

/-- In every document that can be reached: a transaction that is begun and
aborted leaves no trace of anything that was tried in between, and neither
does a command that is executed and does not go through, also when it is
executed inside a transaction. -/
theorem abort_attempts_execute_failed {d : Document} (h : Reached d) :
    (d.log.isActive = false → ∀ kind (as : List Attempt),
        (d.begin kind).1 = .ok ()
          ∧ ((d.begin kind).2.performAll (as.map Attempt.action)).abort = d)
      ∧ ∀ c, (d.execute c).1 ≠ .ok true → (d.execute c).2 = d := by
  refine ⟨fun hidle kind as => ?_, fun c hnot => ?_⟩
  · rcases d.begin_cases kind with ⟨hactive, -⟩ | ⟨hnone, hbegin⟩
    · rw [hidle] at hactive
      cases hactive
    · rw [hbegin]
      refine ⟨rfl, ?_⟩
      rw [((within_begun d kind).performAll as).abort]
      exact settled_of_idle h.checked hnone
  · rcases d.execute_cases c
      with ⟨-, hsame, -⟩ | ⟨-, hsettled, hnone⟩ | ⟨p, -, -, hexecute⟩
    · exact hsame
    · rw [hsettled]
      exact settled_of_idle h.checked hnone
    · rw [hexecute] at hnot
      exact absurd rfl hnot

/-- A sheet that can be made once. -/
def onlySheet : Command := .createSheet "s".toList "S".toList

/-- The sheet is made, and a run is under way. -/
def awaiting : Document :=
  ((blank 0 Script.defaultModule).work (.action (.execute onlySheet))).work
    (.beginRun ⟨[0]⟩)

/-- Another sheet is recorded, and a transaction, a second sheet with the
same identifier and a command that does nothing are tried. The sheet cannot
be made again outside a transaction either. -/
theorem abort_attempts_execute_failed_onlySheet :
    Reached awaiting ∧ awaiting.log.isActive = false
      ∧ (awaiting.execute onlySheet).1 ≠ .ok true
      ∧ ((awaiting.begin .cellEdit).2.performAll
          ([.record (.createSheet "r".toList "R".toList), .begin .general,
            .record onlySheet, .execute (.script [])].map
              Attempt.action)).abort = awaiting
      ∧ (awaiting.execute onlySheet).2 = awaiting := by
  have hreached : Reached awaiting :=
    .work _ (.work _ (.start 0 (.blank Script.defaultModule)))
  have hidle : awaiting.log.isActive = false := rfl
  have hnot : (awaiting.execute onlySheet).1 ≠ .ok true := nofun
  have h := abort_attempts_execute_failed hreached
  exact ⟨hreached, hidle, hnot, (h.1 hidle .cellEdit _).2, h.2 _ hnot⟩

end GridScript.Document
