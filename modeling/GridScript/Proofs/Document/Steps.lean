/-
What the operations on a document can do, each said once. Beginning is
refused while a transaction is active; recording is refused, idle, or leads
the project and the transaction on by one command; committing moves the
transaction behind the others and writes the script anew unless nothing was
recorded. A command that is executed by itself either goes through all
three, or leaves the document as it was before (`execute_cases`).

Whatever holds of a document in the course of operations is proved from
these and not from the operations themselves.
-/
import GridScript.Document.Basic

namespace GridScript.Document

variable (d : Document)

/-- The document in a transaction that was just begun. -/
def begun (kind : TransactionKind) : Document :=
  { d with
    log := ⟨d.log.committed, some ⟨kind, []⟩⟩, checkpoint := some d.project }

/-- The document without the active transaction, and with the project left
as it is. -/
def settled : Document :=
  { d with log := ⟨d.log.committed, none⟩, checkpoint := none }

/-- The document with a transaction behind those that were committed, and the
script written anew. -/
def extended (t : Transaction) : Document :=
  { d with
    log := ⟨d.log.committed ++ [t], none⟩
    checkpoint := none : Document }.regenerated

theorem begin_cases (kind : TransactionKind) :
    (d.log.isActive = true
      ∧ d.begin kind = (.error (.log .transactionActive), d))
      ∨ (d.log.active = none ∧ d.begin kind = (.ok (), d.begun kind)) := by
  unfold Document.begin Log.begin Log.isActive
  cases hactive : d.log.active with
  | some t => exact Or.inl ⟨rfl, rfl⟩
  | none => exact Or.inr ⟨rfl, rfl⟩

/-- What is recorded is applied, and joins the active transaction. -/
theorem record_cases (c : Command) :
    ((d.record c).1 ≠ .ok true ∧ (d.record c).2 = d)
      ∨ ∃ t p, d.log.active = some t ∧ c.apply d.project = .ok p
        ∧ d.record c
          = (.ok true, { d with
              project := p
              log := ⟨d.log.committed, some (t.record c)⟩ }) := by
  unfold Document.record Log.isActive Log.record
  cases hactive : d.log.active with
  | none =>
      left
      exact ⟨fun h => (by cases h), rfl⟩
  | some t =>
      simp only [Option.isSome_some, Bool.not_true, Bool.false_eq_true,
        if_false]
      by_cases hidle : c.isIdle = true
      · left
        rw [if_pos hidle]
        exact ⟨fun h => (by cases h), rfl⟩
      · rw [if_neg hidle]
        cases happly : c.apply d.project with
        | error e =>
            left
            exact ⟨fun h => (by cases h), rfl⟩
        | ok p => exact Or.inr ⟨t, p, rfl, rfl, rfl⟩

theorem commit_cases :
    (d.log.active = none ∧ d.commit = (.error (.log .noActiveTransaction), d))
      ∨ ∃ t, d.log.active = some t
        ∧ d.commit = (.ok t, if t.commands.isEmpty then d.settled
          else d.extended t) := by
  unfold Document.commit Log.commit
  cases hactive : d.log.active with
  | none => exact Or.inl ⟨rfl, rfl⟩
  | some t =>
      right
      refine ⟨t, rfl, ?_⟩
      cases hempty : t.commands.isEmpty with
      | true =>
          simp only [hempty, if_true]
          rfl
      | false =>
          simp only [hempty, Bool.false_eq_true, if_false]
          rfl

theorem abort_of_active {t : Transaction} (h : d.log.active = some t) :
    d.abort = { d.settled with project := d.checkpoint.getD d.project } := by
  unfold Document.abort Log.isActive
  rw [h]
  rfl

theorem abort_of_idle (h : d.log.active = none) : d.abort = d := by
  unfold Document.abort Log.isActive
  rw [h]
  rfl

theorem abort_cases :
    (d.log.active = none ∧ d.abort = d)
      ∨ ∃ t, d.log.active = some t
        ∧ d.abort = { d.settled with
            project := d.checkpoint.getD d.project } := by
  cases hactive : d.log.active with
  | none => exact Or.inl ⟨rfl, d.abort_of_idle hactive⟩
  | some t => exact Or.inr ⟨t, rfl, d.abort_of_active hactive⟩

/-- A command that is executed is refused while a transaction is active. Else
it is a transaction of its own, if it is applied, and it leaves nothing
behind if it is not. -/
theorem execute_cases (c : Command) :
    ((d.execute c).1 ≠ .ok true ∧ (d.execute c).2 = d ∧ d.log.isActive = true)
      ∨ ((d.execute c).1 ≠ .ok true ∧ (d.execute c).2 = d.settled
        ∧ d.log.active = none)
      ∨ ∃ p, d.log.active = none ∧ c.apply d.project = .ok p
        ∧ d.execute c = (.ok true, { d with
            project := p : Document }.extended ⟨.general, [c]⟩) := by
  unfold execute
  rcases d.begin_cases .general with ⟨hactive, hbegin⟩ | ⟨hidle, hbegin⟩
  · left
    rw [hbegin]
    exact ⟨fun h => (by cases h), rfl, hactive⟩
  · rw [hbegin]
    simp only
    right
    have hbegun : (d.begun .general).log.active = some ⟨.general, []⟩ := rfl
    rcases (d.begun .general).record_cases c
      with ⟨hnot, hsame⟩ | ⟨t, p, ht, happly, hrecord⟩
    -- nothing was recorded: an error aborts, and an idle command commits
    -- nothing
    · left
      rcases hrecord : (d.begun .general).record c with ⟨result, e⟩
      rw [hrecord] at hnot hsame
      replace hsame : e = d.begun .general := hsame
      rw [hsame]
      cases result with
      | error error =>
          simp only
          rw [abort_of_active _ hbegun]
          exact ⟨fun h => (by cases h), rfl, hidle⟩
      | ok recorded =>
          cases recorded with
          | true => exact absurd rfl hnot
          | false => exact ⟨fun h => (by cases h), rfl, hidle⟩
    -- the command is all that is committed
    · right
      rw [hbegun] at ht
      injection ht with ht
      subst ht
      rw [hrecord]
      exact ⟨p, hidle, happly, rfl⟩

end GridScript.Document
