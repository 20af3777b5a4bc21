/-
The three things a document keeps, its project, its log and its script, say
the same in every state that it can be brought into. Whatever is done to a
new document, and whatever of it is refused:

- the project is what the commands of the log lead to, replayed from the
  project without sheets, and none of them is refused on the way;
- a checkpoint is there exactly while a transaction is active, and it is
  what the committed commands alone lead to;
- the script is the new script with the normal form of the log behind it.

# The invariant

`InStep` speaks of the `baseline`, which is the checkpoint or, without one,
the project. The committed commands lead to the baseline, and the active
ones lead from there to the project. With no transaction active there is
nothing between the two, so that beginning, committing and aborting each
only move the line between the committed and the active. What recording
does to the replay is `Project.replay_record`; that the script absorbs what
was generated before is `Script.compose_compose`.
-/
import GridScript.Proofs.Document.Steps
import GridScript.Proofs.Project.Replay
import GridScript.Proofs.Script.Parts

namespace GridScript

namespace Document

-- ================================================================ runs

/-- What is done to a document. -/
inductive Action where
  | begin (kind : TransactionKind)
  | record (c : Command)
  | commit
  | abort
  | execute (c : Command)
  deriving DecidableEq

/-- The document after an action, also after one that is refused. -/
def perform (d : Document) : Action → Document
  | .begin kind => (d.begin kind).2
  | .record c => (d.record c).2
  | .commit => d.commit.2
  | .abort => d.abort
  | .execute c => (d.execute c).2

/-- The document after actions in a row. -/
def performAll (d : Document) (as : List Action) : Document :=
  as.foldl perform d

-- ======================================================== the invariant

/-- The project as it was before the active transaction. -/
def baseline (d : Document) : Project := d.checkpoint.getD d.project

/-- Project, log and script say the same. -/
structure InStep (initial : Text) (d : Document) : Prop where
  /-- The committed commands lead to the baseline. -/
  committed : Project.empty.replay d.log.commands = .ok d.baseline
  /-- The active commands lead from there to the project. -/
  active : d.baseline.replay d.log.activeCommands = .ok d.project
  checkpoint : d.checkpoint.isSome = d.log.isActive
  script : d.script = Script.compose initial d.generatedText

namespace InStep

variable {initial : Text} {d : Document}

/-- With no transaction active, the baseline is the project. -/
theorem baseline_eq (h : InStep initial d) (hidle : d.log.active = none) :
    d.baseline = d.project := by
  have hnone := h.checkpoint
  unfold Log.isActive at hnone
  rw [hidle, Option.isSome_none, Option.isSome_eq_false_iff,
    Option.isNone_iff_eq_none] at hnone
  unfold baseline
  rw [hnone]
  rfl

/-- What was not applied is not missed: without active commands the project
is settled. -/
theorem settled (h : InStep initial d) (hproject : d.baseline = d.project) :
    InStep initial d.settled where
  committed := by
    have hcommitted := h.committed
    rw [hproject] at hcommitted
    exact hcommitted
  active := rfl
  checkpoint := rfl
  script := h.script

/-- The script that is written anew follows the log. -/
theorem script_regenerated {d : Document} {before : Text}
    (hinitial : initial ≠ []) (h : d.script = Script.compose initial before) :
    d.regenerated.script
      = Script.compose initial d.regenerated.generatedText := by
  show Script.compose d.script d.generatedText
      = Script.compose initial d.generatedText
  rw [h]
  exact Script.compose_compose before (Or.inl hinitial)

/-- A transaction that leads on from the baseline moves it. -/
theorem extended (hinitial : initial ≠ []) (h : InStep initial d)
    {t : Transaction} {p : Project}
    (hreplay : d.baseline.replay t.commands = .ok p) :
    InStep initial ({ d with project := p : Document }.extended t) where
  committed := by
    show Project.empty.replay
        ((d.log.committed ++ [t]).flatMap Transaction.commands) = _
    rw [List.flatMap_append, List.flatMap_singleton]
    exact Project.replay_append h.committed hreplay
  active := rfl
  checkpoint := rfl
  script := script_regenerated hinitial h.script

/-- Beginning puts the line behind everything that was done. -/
theorem begin (h : InStep initial d) (kind : TransactionKind) :
    InStep initial (d.begin kind).2 := by
  rcases d.begin_cases kind with ⟨-, hbegin⟩ | ⟨hidle, hbegin⟩
  · rwa [hbegin]
  · rw [hbegin]
    have hcommitted := h.committed
    rw [h.baseline_eq hidle] at hcommitted
    exact ⟨hcommitted, rfl, rfl, h.script⟩

/-- Recording leads the active commands on by the recorded one, and leaves
the baseline and the script as they are. -/
theorem record (h : InStep initial d) (c : Command) :
    InStep initial (d.record c).2 := by
  rcases d.record_cases c with ⟨-, hsame⟩ | ⟨t, p, hactive, happly, hrecord⟩
  · rwa [hsame]
  · rw [hrecord]
    -- the checkpoint is there, so the new project is not the baseline
    have hsome : d.checkpoint.isSome = true := by
      rw [h.checkpoint]
      unfold Log.isActive
      rw [hactive]
      rfl
    obtain ⟨q, hq⟩ := Option.isSome_iff_exists.1 hsome
    have hcommitted := h.committed
    have hreplay := h.active
    unfold baseline at hcommitted hreplay
    unfold Log.activeCommands at hreplay
    rw [hq] at hcommitted hreplay
    rw [hactive] at hreplay
    exact {
      committed := by
        unfold baseline
        rw [hq]
        exact hcommitted
      active := by
        unfold baseline
        rw [hq]
        exact Project.replay_record hreplay happly
      checkpoint := hsome
      script := h.script }

/-- Committing moves the line behind the active commands. -/
theorem commit (hinitial : initial ≠ []) (h : InStep initial d) :
    InStep initial d.commit.2 := by
  rcases d.commit_cases with ⟨-, hcommit⟩ | ⟨t, hactive, hcommit⟩
  · rwa [hcommit]
  · have hreplay := h.active
    unfold Log.activeCommands at hreplay
    rw [hactive] at hreplay
    rw [hcommit]
    cases hempty : t.commands.isEmpty with
    | true =>
        -- nothing was recorded, and nothing is kept
        rw [Option.elim_some, List.isEmpty_iff.1 hempty] at hreplay
        injection hreplay with hproject
        exact h.settled hproject
    | false => exact h.extended hinitial hreplay

/-- Aborting goes back to the line. -/
theorem abort (h : InStep initial d) : InStep initial d.abort := by
  rcases d.abort_cases with ⟨-, habort⟩ | ⟨t, -, habort⟩
  · rwa [habort]
  · rw [habort]
    exact ⟨h.committed, rfl, rfl, h.script⟩

/-- A command that is executed is all of its transaction. -/
theorem execute (hinitial : initial ≠ []) (h : InStep initial d)
    (c : Command) :
    InStep initial (d.execute c).2 := by
  rcases d.execute_cases c
    with ⟨-, hsame, -⟩ | ⟨-, hsettled, hidle⟩ | ⟨p, hidle, happly, hexecute⟩
  · rwa [hsame]
  · rw [hsettled]
    exact h.settled (h.baseline_eq hidle)
  · rw [hexecute]
    refine h.extended hinitial ?_
    rw [h.baseline_eq hidle]
    exact (Project.replay_singleton d.project c).trans happly

/-- Every action keeps the three in step. -/
theorem perform (hinitial : initial ≠ []) (h : InStep initial d) (a : Action) :
    InStep initial (d.perform a) := by
  cases a with
  | begin kind => exact h.begin kind
  | record c => exact h.record c
  | commit => exact h.commit hinitial
  | abort => exact h.abort
  | execute c => exact h.execute hinitial c

theorem performAll (hinitial : initial ≠ []) (h : InStep initial d)
    (as : List Action) :
    InStep initial (d.performAll as) := by
  induction as generalizing d with
  | nil => exact h
  | cons a as ih => exact ih (h.perform hinitial a)

end InStep

theorem generatedText_blank (counter : Nat) (helperModule : Text) :
    (blank counter helperModule).generatedText = [] := by
  have hlines : (blank counter helperModule).log.lines = [] := rfl
  have hflat : Script.flatLines [] = [] := rfl
  unfold generatedText Script.normalize
  rw [hlines, hflat]
  rfl

/-- A new document is in step: there is nothing to replay, and its script
is composed of a preamble and nothing generated. -/
theorem inStep_blank (counter : Nat) (helperModule : Text) :
    InStep (Script.newScript helperModule) (blank counter helperModule) where
  committed := rfl
  active := rfl
  checkpoint := rfl
  script := by
    rw [generatedText_blank]
    show Script.newScript helperModule = _
    unfold Script.newScript
    exact (Script.compose_compose []
      (Or.inl (Script.preamble_ne_nil helperModule))).symm

-- ======================================================== the theorem

/-- Whatever is done to a new document, its project, its log and its script
say the same. -/
theorem project_log_script_agree (counter : Nat) (helperModule : Text)
    (as : List Action) :
    let d := (blank counter helperModule).performAll as
    Project.empty.replay (d.log.commands ++ d.log.activeCommands)
      = .ok d.project
      ∧ d.checkpoint.isSome = d.log.isActive
      ∧ (∀ q, d.checkpoint = some q →
        Project.empty.replay d.log.commands = .ok q)
      ∧ d.script
        = Script.compose (Script.newScript helperModule) d.generatedText := by
  intro d
  have h : InStep (Script.newScript helperModule) d :=
    (inStep_blank counter helperModule).performAll
      (Script.newScript_ne_nil helperModule) as
  refine ⟨Project.replay_append h.committed h.active, h.checkpoint, ?_,
    h.script⟩
  intro q hq
  have hbase := h.committed
  unfold baseline at hbase
  rw [hq] at hbase
  exact hbase

end Document

end GridScript
