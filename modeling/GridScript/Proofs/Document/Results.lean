/-
Runs and their results, beside everything else that is done to a document.
A counter hands out its tickets one after the other, so the tickets that it
has given are known from where it stands (`given`), and of these only the
last is current (`isCurrent_iff`).

Nothing but a run and its result touches what a document keeps about runs:
`KeepsRuns` says so of every change, whether it goes through or is refused.
What a result does that counts is written out once (`take`); any other
result leaves everything as it is (`applyResult_eq`).
-/
import GridScript.Document.Run
import GridScript.Proofs.Document.InStep

namespace GridScript

-- =============================================================== tickets

namespace RunCounters

variable {cs : RunCounters} {a b : Nat}

/-- There is such a counter. -/
def Has (cs : RunCounters) (a : Nat) : Prop := a < cs.started.length

/-- The tickets that a counter has given, the first one first. -/
def given (cs : RunCounters) (a : Nat) : List RunTicket :=
  (List.range (cs.current a)).map fun g => ⟨a, g + 1⟩

theorem has_advance : (cs.advance a).Has b ↔ cs.Has b := by
  unfold Has advance
  rw [List.length_modify]

theorem has_add_fresh (cs : RunCounters) : cs.add.Has cs.fresh := by
  unfold Has add fresh
  simp

theorem current_advance (h : cs.Has a) :
    (cs.advance a).current a = cs.current a + 1 := by
  unfold Has at h
  unfold current advance
  simp [List.getD_eq_getElem?_getD, List.getElem?_eq_getElem h]

theorem current_advance_of_ne (h : a ≠ b) :
    (cs.advance a).current b = cs.current b := by
  unfold current advance
  simp [List.getD_eq_getElem?_getD, h]

/-- A new counter stands where one that is not there is taken to stand. -/
theorem current_add (cs : RunCounters) (a : Nat) :
    cs.add.current a = cs.current a := by
  unfold current add
  rw [List.getD_eq_getElem?_getD, List.getD_eq_getElem?_getD,
    List.getElem?_append]
  split
  case isTrue => rfl
  case isFalse hout =>
      have hnone : cs.started[a]? = none :=
        List.getElem?_eq_none (Nat.le_of_not_lt hout)
      rw [hnone]
      cases a - cs.started.length <;> rfl

theorem current_fresh (cs : RunCounters) : cs.current cs.fresh = 0 := by
  unfold current fresh
  rw [List.getD_eq_getElem?_getD, List.getElem?_eq_none (Nat.le_refl _)]
  rfl

theorem length_given : (cs.given a).length = cs.current a := by
  unfold given
  rw [List.length_map, List.length_range]

theorem getElem_given {n : Nat} (h : n < (cs.given a).length) :
    (cs.given a)[n] = ⟨a, n + 1⟩ := by
  simp [given]

/-- Of the tickets that a counter has given only the last is current. -/
theorem isCurrent_iff {g : Nat} :
    cs.isCurrent ⟨a, g⟩ = true ↔ g = (cs.given a).length := by
  rw [length_given]
  unfold isCurrent
  rw [beq_iff_eq, eq_comm]

theorem given_advance (h : cs.Has a) :
    (cs.advance a).given a = cs.given a ++ [cs.nextTicket a] := by
  unfold given
  rw [current_advance h, List.range_succ, List.map_append]
  rfl

theorem given_advance_of_ne (h : a ≠ b) :
    (cs.advance a).given b = cs.given b := by
  unfold given
  rw [current_advance_of_ne h]

theorem given_add (cs : RunCounters) (a : Nat) :
    cs.add.given a = cs.given a := by
  unfold given
  rw [current_add]

theorem given_fresh (cs : RunCounters) : cs.given cs.fresh = [] := by
  unfold given
  rw [current_fresh]
  rfl

end RunCounters

namespace Document

-- =============================================================== changes

/-- Where a document comes from: it is new, or it is opened with a script,
with what is known of its history and with its file. -/
inductive Origin where
  | blank (helperModule : Text)
  | script (script : Text) (history : Option History) (path : Option Path)

/-- The document as it is at first. -/
def Origin.document (counter : Nat) : Origin → Document
  | blank helperModule => Document.blank counter helperModule
  | script s history path => { ofScript counter s history with path := path }

/-- What is done to a document apart from its runs. -/
inductive Change where
  | action (a : Action)
  | edit (script : Text)

/-- The document after a change, also after one that is refused. -/
def change (d : Document) : Change → Document
  | .action a => d.perform a
  | .edit script => d.edit script

/-- A checkpoint is there exactly while a transaction is active. -/
def Checked (d : Document) : Prop := d.checkpoint.isSome = d.log.isActive

/-- With no transaction active there is no checkpoint. -/
theorem Checked.checkpoint_eq {d : Document} (h : d.Checked)
    (hidle : d.log.active = none) :
    d.checkpoint = none := by
  unfold Checked Log.isActive at h
  rwa [hidle, Option.isSome_none, Option.isSome_eq_false_iff,
    Option.isNone_iff_eq_none] at h

theorem Checked.checkpoint_abort {d : Document} (h : d.Checked) :
    d.abort.checkpoint = none := by
  rcases d.abort_cases with ⟨hidle, habort⟩ | ⟨t, -, habort⟩ <;> rw [habort]
  · exact h.checkpoint_eq hidle
  · rfl

/-- A log that was just made of lines has no transaction active. -/
theorem checked_of_ofLines {d : Document} {ls : List Text}
    (hlog : d.log = .ofLines ls) (h : d.checkpoint = none) : d.Checked := by
  unfold Checked Log.isActive
  rw [hlog, h, Log.active_ofLines]
  rfl

/-- What is known of runs is the same in the second document as in the
first, and its checkpoint still goes with its transaction. -/
structure KeepsRuns (d e : Document) : Prop where
  counter : e.counter = d.counter
  pending : e.pending = d.pending
  checked : d.Checked → e.Checked

namespace KeepsRuns

variable {d : Document}

theorem refl (d : Document) : KeepsRuns d d := ⟨rfl, rfl, id⟩

/-- To settle or to extend the log takes the checkpoint away. -/
theorem settled (d : Document) : KeepsRuns d d.settled :=
  ⟨rfl, rfl, fun _ => rfl⟩

theorem extended (d : Document) (p : Project) (t : Transaction) :
    KeepsRuns d ({ d with project := p : Document }.extended t) :=
  ⟨rfl, rfl, fun _ => rfl⟩

theorem begin (d : Document) (kind : TransactionKind) :
    KeepsRuns d (d.begin kind).2 := by
  rcases d.begin_cases kind with ⟨-, hbegin⟩ | ⟨-, hbegin⟩ <;> rw [hbegin]
  · exact .refl d
  · exact ⟨rfl, rfl, fun _ => rfl⟩

theorem record (d : Document) (c : Command) : KeepsRuns d (d.record c).2 := by
  rcases d.record_cases c with ⟨-, hsame⟩ | ⟨t, p, hactive, -, hrecord⟩
  · rw [hsame]
    exact .refl d
  · rw [hrecord]
    refine ⟨rfl, rfl, fun h => ?_⟩
    unfold Checked Log.isActive at h
    rw [hactive] at h
    exact h

theorem commit (d : Document) : KeepsRuns d d.commit.2 := by
  rcases d.commit_cases with ⟨-, hcommit⟩ | ⟨t, -, hcommit⟩ <;> rw [hcommit]
  · exact .refl d
  · cases t.commands.isEmpty with
    | true => exact settled d
    | false => exact extended d d.project t

theorem abort (d : Document) : KeepsRuns d d.abort := by
  rcases d.abort_cases with ⟨-, habort⟩ | ⟨t, -, habort⟩ <;> rw [habort]
  · exact .refl d
  · exact ⟨rfl, rfl, fun _ => rfl⟩

theorem execute (d : Document) (c : Command) :
    KeepsRuns d (d.execute c).2 := by
  rcases d.execute_cases c
    with ⟨-, hsame, -⟩ | ⟨-, hsettled, -⟩ | ⟨p, -, -, hexecute⟩
  · rw [hsame]
    exact .refl d
  · rw [hsettled]
    exact settled d
  · rw [hexecute]
    exact extended d p _

theorem edit (d : Document) (script : Text) : KeepsRuns d (d.edit script) := by
  have habort := abort d
  exact ⟨habort.counter, habort.pending,
    fun h => checked_of_ofLines rfl h.checkpoint_abort⟩

/-- No change has to do with runs. -/
theorem change (d : Document) (c : Change) : KeepsRuns d (d.change c) := by
  cases c with
  | edit script => exact edit d script
  | action a =>
      cases a with
      | begin kind => exact begin d kind
      | record c => exact record d c
      | commit => exact commit d
      | abort => exact abort d
      | execute c => exact execute d c

end KeepsRuns

theorem counter_document (counter : Nat) (o : Origin) :
    (o.document counter).counter = counter := by
  cases o <;> rfl

theorem pending_document (counter : Nat) (o : Origin) :
    (o.document counter).pending = none := by
  cases o <;> rfl

theorem checked_document (counter : Nat) (o : Origin) :
    (o.document counter).Checked := by
  cases o with
  | blank helperModule => rfl
  | script s history path => exact checked_of_ofLines rfl rfl

-- =============================================================== results

/-- What a result that counts gives, and the document after it. -/
def take (d : Document) (run : PendingRun) :
    Except RunError RunOutput → Except RunError Bool × Document
  | .error e => (.error e, { d with pending := none })
  | .ok output =>
      (.ok true, { d with pending := none }.adopt run.script output.project)

/-- A result counts if its ticket is current and the document waits for a
run of its number. -/
theorem applyResult_eq (d : Document) (cs : RunCounters) (t : RunTicket)
    (result : Except RunError RunOutput) :
    d.applyResult cs t result
      = match d.pending with
        | some run =>
          if cs.isCurrent t = true ∧ run.generation = t.generation then
            d.take run result
          else (.ok false, d)
        | none => (.ok false, d) := by
  unfold applyResult
  cases hpending : d.pending with
  | none =>
      simp only
      split <;> rfl
  | some run =>
      cases cs.isCurrent t with
      | false => simp
      | true =>
          by_cases hnumber : run.generation = t.generation
          · simp only [Bool.not_true, Bool.false_eq_true, if_false,
              hnumber, ne_eq, not_true_eq_false, and_self, if_true]
            cases result <;> rfl
          · simp [hnumber]

section Take

variable (d : Document) (run : PendingRun) (result : Except RunError RunOutput)

theorem pending_take : (d.take run result).2.pending = none := by
  cases result with
  | error e => rfl
  | ok output => exact (KeepsRuns.abort { d with pending := none }).pending

theorem counter_take : (d.take run result).2.counter = d.counter := by
  cases result with
  | error e => rfl
  | ok output => exact (KeepsRuns.abort { d with pending := none }).counter

variable {d}

theorem checked_take (h : d.Checked) : (d.take run result).2.Checked := by
  cases result with
  | error e => exact h
  | ok output =>
      have hchecked : Checked { d with pending := none } := h
      exact checked_of_ofLines rfl hchecked.checkpoint_abort

end Take

/-- A project that was reported is taken over with the log of the script
that was run. -/
theorem take_ok {d : Document} (h : d.Checked) {run : PendingRun}
    {output : RunOutput} :
    d.take run (.ok output)
      = (.ok true,
          { d with
            project := output.project
            log := .ofLines (History.ofScript run.script).commands
            checkpoint := none
            pending := none }) := by
  have hchecked : Checked { d with pending := none } := h
  have hcheckpoint := hchecked.checkpoint_abort
  show (Except.ok true, { d with
      pending := none }.adopt run.script output.project) = _
  unfold adopt
  unfold abort at hcheckpoint ⊢
  by_cases hactive : d.log.isActive = true
  · rw [if_pos hactive]
  · rw [if_neg hactive] at hcheckpoint ⊢
    rw [← hcheckpoint]

end Document

end GridScript
