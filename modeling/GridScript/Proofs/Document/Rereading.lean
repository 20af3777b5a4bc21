/-
Reading a script back changes nothing that can be seen. A document may take
over its own script between transactions, as often as one likes: its log is
then what stands in the script, literals gathered and names dropped, and
not the commands that were given. Whatever is done afterwards, its script
and its generated part are those of the document that never did.

# The invariant

`Mirrors` follows two documents through one run, of which the second
rereads its script at times. The two have one project, one script and one
active transaction. Their logs differ, but they are alike as scripts
(`Script.Alike`): whatever is put behind both, they have one normal form.
That a log is such a script is due to the project, from which the commands
of the first document were never refused (`built_replay`), and a reread
keeps the two alike because a normal form is like what it was made of
(`Script.alike_normalPieces`).
-/
import GridScript.Proofs.Command.Built
import GridScript.Proofs.Command.Log
import GridScript.Proofs.Document.History
import GridScript.Proofs.Document.InStep

namespace GridScript

open Script (Piece Built Alike normalPieces normalize)

-- =========================================================== flat logs

namespace Transaction

variable {c : Command}

/-- Flat commands stay flat when they are recorded. -/
theorem flat_record {t : Transaction} (hc : c.Flat)
    (h : ∀ d ∈ t.commands, d.Flat) :
    ∀ d ∈ (t.record c).commands, d.Flat := by
  rcases t.record_cases c
    with hlast | ⟨before, last, merged, hcommands, hmerge, hlast⟩ <;>
    rw [hlast, List.forall_mem_append, List.forall_mem_singleton]
  · exact ⟨h, hc⟩
  · rw [hcommands, List.forall_mem_append] at h
    obtain ⟨id, cells, others, -, -, rfl⟩ := Command.merge?_cases hmerge
    exact ⟨h.1, trivial⟩

end Transaction

-- ========================================================= built scripts

/-- The normal form of the lines of a built script is that of its pieces. -/
theorem normalize_built {ps : List Piece} (hfit : ∀ p ∈ ps, p.Fit)
    (h : Built [] ps) :
    normalize (ps.flatMap Piece.render)
      = (normalPieces ps).flatMap Piece.render := by
  cases ps with
  | nil =>
      rw [Script.normalPieces_built h]
      rfl
  | cons p ps =>
      refine Script.normalize_render hfit ?_
      rintro (hnil | hblank)
      · cases p <;> cases hnil
      · have hvisible :=
          allBlank_of_built hfit h [] (hblank ▸ List.mem_singleton_self _)
        cases hvisible

namespace Log

/-- The log with one more transaction. -/
def snoc (l : Log) (t : Transaction) : Log := ⟨l.committed ++ [t], none⟩

theorem commands_snoc (l : Log) (t : Transaction) :
    (l.snoc t).commands = l.commands ++ t.commands := by
  unfold commands snoc
  rw [List.flatMap_append, List.flatMap_singleton]

theorem lines_snoc (l : Log) (t : Transaction) :
    (l.snoc t).lines = l.lines ++ t.lines := by
  unfold lines snoc
  rw [List.flatMap_append, List.flatMap_singleton]

/-- The commands of the log that committed to it make a built script. -/
structure Sound (l : Log) : Prop where
  flat : ∀ c ∈ l.commands, c.Flat
  built : Built [] (l.commands.flatMap Command.pieces)

/-- The lines of another log are a built script that is alike. -/
structure Resembles (m l : Log) : Prop where
  pieces : ∃ ps, m.lines = ps.flatMap Piece.render ∧ (∀ p ∈ ps, p.Fit)
    ∧ Built [] ps
    ∧ Alike (l.commands.flatMap Command.pieces) ps

theorem Sound.resembles {l : Log} (h : l.Sound) : l.Resembles l :=
  ⟨_, l.lines_eq, fit_pieces h.flat, h.built, .refl _⟩

/-- Both logs have one normal form. -/
theorem Resembles.normalize_eq {m l : Log} (h : m.Resembles l) (hl : l.Sound) :
    normalize m.lines = normalize l.lines := by
  obtain ⟨ps, hlines, hfit, hbuilt, halike⟩ := h.pieces
  rw [hlines, l.lines_eq, normalize_built hfit hbuilt,
    normalize_built (fit_pieces hl.flat) hl.built,
    halike.normalPieces_eq hl.built hbuilt]

/-- What a transaction adds builds on the tables of either log. -/
theorem Resembles.snoc {m l : Log} (h : m.Resembles l) {t : Transaction}
    (hl : (l.snoc t).Sound) : (m.snoc t).Resembles (l.snoc t) := by
  obtain ⟨ps, hlines, hfit, hbuilt, halike⟩ := h.pieces
  obtain ⟨hflat, hall⟩ := hl
  have hpieces : (l.snoc t).commands.flatMap Command.pieces
      = l.commands.flatMap Command.pieces
        ++ t.commands.flatMap Command.pieces := by
    rw [commands_snoc, List.flatMap_append]
  have hrendered : (t.commands.flatMap Command.pieces).flatMap Piece.render
      = t.lines := by
    rw [List.flatMap_assoc]
    simp only [Command.render_pieces]
    rfl
  have hmore : ∀ p ∈ t.commands.flatMap Command.pieces, p.Fit := by
    rw [commands_snoc] at hflat
    exact fit_pieces fun c hc => hflat c (List.mem_append_right _ hc)
  rw [hpieces, Script.built_append] at hall
  refine ⟨ps ++ t.commands.flatMap Command.pieces, ?_, ?_, ?_, ?_⟩
  · rw [lines_snoc, hlines, List.flatMap_append, hrendered]
  · exact List.forall_mem_append.2 ⟨hfit, hmore⟩
  · rw [Script.built_append, ← halike.created]
    exact ⟨hbuilt, hall.2⟩
  · rw [hpieces]
    exact halike.append _

/-- The log of what is read back from a script resembles the log that the
script was written from. -/
theorem Resembles.ofLines {m l : Log} (h : m.Resembles l) :
    (ofLines (normalize m.lines)).Resembles l := by
  obtain ⟨ps, hlines, hfit, hbuilt, halike⟩ := h.pieces
  refine ⟨normalPieces ps, ?_, Script.fit_normalPieces hfit hbuilt.resolved,
    hbuilt.normalPieces, halike.trans (Script.alike_normalPieces hbuilt).symm⟩
  rw [lines_ofLines, hlines, normalize_built hfit hbuilt]

/-- The history of what was generated is all of it. -/
theorem Resembles.commands_ofGenerated {m l : Log} (h : m.Resembles l) :
    (History.ofGenerated (Text.unlines (normalize m.lines))).commands
      = normalize m.lines := by
  obtain ⟨ps, hlines, hfit, hbuilt, -⟩ := h.pieces
  rw [hlines, normalize_built hfit hbuilt]
  exact History.commands_ofBuilt hfit hbuilt

/-- What is read back from a script is what was generated into it. -/
theorem Resembles.commands_ofScript {initial : Text} (hinitial : initial ≠ [])
    {m l : Log} (h : m.Resembles l) :
    (History.ofScript
      (Script.compose initial (Text.unlines (normalize m.lines)))).commands
      = normalize m.lines := by
  obtain ⟨ps, hlines, hfit, hbuilt, -⟩ := h.pieces
  rw [hlines, normalize_built hfit hbuilt]
  exact History.commands_ofScript hinitial hfit hbuilt

end Log

namespace Document

/-- The action has no formula that breaks its line, and no lines that are
in the script already. -/
def Action.Flat : Action → Prop
  | .record c => c.Flat
  | .execute c => c.Flat
  | _ => True

/-- The states of a run from a new document, each beside the state of the
same run with rereads in it. A reread hands the document its own script as
if that had been edited, while no transaction is active. No two tables of
the run share a local name. -/
inductive Rereads (counter : Nat) (helperModule : Text) :
    Document → Document → Prop
  | start : Rereads counter helperModule (blank counter helperModule)
    (blank counter helperModule)
  | perform {d e : Document} (a : Action)
      (h : Rereads counter helperModule d e) (hflat : a.Flat)
        (hnames : (d.perform a).project.DistinctNames) :
      Rereads counter helperModule (d.perform a) (e.perform a)
  | reread {d e : Document} (h : Rereads counter helperModule d e)
      (hidle : e.log.isActive = false) :
        Rereads counter helperModule d (e.edit e.script)

-- ================================================== executed commands

section Execute

variable {d : Document} {c : Command}

/-- Committing leaves the project as it is. -/
theorem project_commit (d : Document) : d.commit.2.project = d.project := by
  rcases d.commit_cases with ⟨-, hcommit⟩ | ⟨t, -, hcommit⟩ <;> rw [hcommit]
  cases t.commands.isEmpty <;> rfl

/-- A command that is refused is not recorded. -/
theorem record_of_error {error : EditError}
    (h : (d.record c).1 = .error error) :
    (d.record c).2 = d := by
  rcases d.record_cases c with ⟨-, hsame⟩ | ⟨t, p, -, -, hrecord⟩
  · exact hsame
  · rw [hrecord] at h
    cases h

/-- A command that cannot begin a transaction leaves what beginning does. -/
theorem execute_of_not_begun {error : EditError}
    (h : (d.begin .general).1 = .error error) :
    (d.execute c).2 = (d.begin .general).2 := by
  unfold execute
  rcases hbegin : d.begin .general with ⟨begun, e⟩
  rw [hbegin] at h
  rw [show begun = .error error from h]

/-- A command that is refused is aborted. -/
theorem execute_of_not_recorded (hbegun : (d.begin .general).1 = .ok ())
    {error : EditError}
    (h : ((d.begin .general).2.record c).1 = .error error) :
    (d.execute c).2 = ((d.begin .general).2.record c).2.abort := by
  unfold execute
  rcases hbegin : d.begin .general with ⟨begun, e⟩
  rw [hbegin] at hbegun h
  rw [show begun = .ok () from hbegun]
  simp only
  rcases hrecord : e.record c with ⟨recorded, f⟩
  rw [hrecord] at h
  rw [show recorded = .error error from h]

/-- Any other command is committed. -/
theorem execute_of_recorded (hbegun : (d.begin .general).1 = .ok ())
    {recorded : Bool} (h : ((d.begin .general).2.record c).1 = .ok recorded) :
    (d.execute c).2 = ((d.begin .general).2.record c).2.commit.2 := by
  unfold execute
  rcases hbegin : d.begin .general with ⟨begun, e⟩
  rw [hbegin] at hbegun h
  rw [show begun = .ok () from hbegun]
  simp only
  rcases hrecord : e.record c with ⟨done, f⟩
  rw [hrecord] at h
  rw [show done = .ok recorded from h]
  simp only
  rcases f.commit with ⟨committed, g⟩
  cases committed <;> rfl

end Execute

-- ============================================================= mirrors

/-- The second document is the first one but for its log, which resembles
the other. -/
structure Mirrors (initial : Text) (d e : Document) : Prop where
  inStep : InStep initial d
  committed : ∀ c ∈ d.log.commands, c.Flat
  pending : ∀ c ∈ d.log.activeCommands, c.Flat
  names : d.project.DistinctNames
  project : e.project = d.project
  checkpoint : e.checkpoint = d.checkpoint
  active : e.log.active = d.log.active
  script : e.script = d.script
  log : e.log.Resembles d.log

/-- A log that leads to a project without shared names is sound. -/
theorem InStep.sound {initial : Text} {d : Document} (h : InStep initial d)
    (hflat : ∀ c ∈ d.log.commands, c.Flat) (hnames : d.project.DistinctNames) :
    d.log.Sound := by
  refine ⟨hflat, built_replay h.committed hflat (hnames.of_replay h.active) ?_⟩
  intro t
  exact ⟨fun ht => (by cases ht),
    fun ht => absurd ht (Project.not_has_empty t)⟩

namespace Mirrors

variable {initial : Text} {d e : Document}

theorem sound (h : Mirrors initial d e) : d.log.Sound :=
  h.inStep.sound h.committed h.names

theorem generatedText_eq (h : Mirrors initial d e) :
    e.generatedText = d.generatedText := by
  unfold generatedText
  rw [h.log.normalize_eq h.sound]

theorem begin (h : Mirrors initial d e) (kind : TransactionKind) :
    (e.begin kind).1 = (d.begin kind).1
      ∧ Mirrors initial (d.begin kind).2 (e.begin kind).2 := by
  have hinStep := h.inStep.begin kind
  unfold Document.begin Log.begin at hinStep ⊢
  rw [h.active]
  cases hactive : d.log.active with
  | some t => exact ⟨rfl, h⟩
  | none =>
      rw [hactive] at hinStep
      refine ⟨rfl, hinStep, h.committed, fun c hc => (by cases hc), h.names,
        h.project, ?_, rfl, h.script, ⟨h.log.pieces⟩⟩
      rw [h.project]

theorem record (h : Mirrors initial d e) {c : Command} (hc : c.Flat)
    (hnames : (d.record c).2.project.DistinctNames) :
    (e.record c).1 = (d.record c).1
      ∧ Mirrors initial (d.record c).2 (e.record c).2 := by
  have hinStep := h.inStep.record c
  unfold Document.record Log.isActive Log.record at hinStep hnames ⊢
  rw [h.active, h.project]
  cases hactive : d.log.active with
  | none => exact ⟨rfl, h⟩
  | some t =>
      rw [hactive] at hinStep hnames
      simp only [Option.isSome_some, Bool.not_true, Bool.false_eq_true,
        if_false]
        at hinStep hnames ⊢
      by_cases hidle : c.isIdle = true
      · rw [if_pos hidle, if_pos hidle]
        exact ⟨rfl, h⟩
      · rw [if_neg hidle] at hinStep hnames
        rw [if_neg hidle, if_neg hidle]
        cases happly : c.apply d.project with
        | error error => exact ⟨rfl, h⟩
        | ok p =>
            rw [happly] at hinStep hnames
            have hpending := h.pending
            unfold Log.activeCommands at hpending
            rw [hactive] at hpending
            exact ⟨rfl, hinStep, h.committed,
              Transaction.flat_record hc hpending, hnames, rfl, h.checkpoint,
              rfl, h.script, ⟨h.log.pieces⟩⟩

theorem commit (hinitial : initial ≠ []) (h : Mirrors initial d e) :
    e.commit.1 = d.commit.1 ∧ Mirrors initial d.commit.2 e.commit.2 := by
  have hinStep := h.inStep.commit hinitial
  unfold Document.commit Log.commit at hinStep ⊢
  rw [h.active]
  cases hactive : d.log.active with
  | none => exact ⟨rfl, h⟩
  | some t =>
      have hpending := h.pending
      unfold Log.activeCommands at hpending
      rw [hactive] at hinStep hpending
      refine ⟨rfl, ?_⟩
      cases hempty : t.commands.isEmpty with
      | true =>
          simp only [hempty, if_true] at hinStep ⊢
          exact ⟨hinStep, h.committed, fun c hc => (by cases hc), h.names,
            h.project, rfl, rfl, h.script, ⟨h.log.pieces⟩⟩
      | false =>
          -- both logs take the transaction, and their normal forms agree again
          simp only [hempty, Bool.false_eq_true, if_false] at hinStep ⊢
          have hcommitted : ∀ c ∈ (d.log.snoc t).commands, c.Flat := by
            rw [Log.commands_snoc]
            exact List.forall_mem_append.2 ⟨h.committed, hpending⟩
          have hsound : (d.log.snoc t).Sound :=
            hinStep.sound hcommitted h.names
          have hlog := h.log.snoc hsound
          refine ⟨hinStep, hcommitted, fun c hc => (by cases hc), h.names,
            h.project, rfl, rfl, ?_, hlog⟩
          show Script.compose e.script
            (Text.unlines (normalize (e.log.snoc t).lines))
            = Script.compose d.script
              (Text.unlines (normalize (d.log.snoc t).lines))
          rw [h.script, hlog.normalize_eq hsound]

theorem abort (h : Mirrors initial d e) : Mirrors initial d.abort e.abort := by
  have hinStep := h.inStep.abort
  have hnames := h.names.of_replay h.inStep.active
  unfold Document.abort Log.isActive at hinStep ⊢
  rw [h.active]
  by_cases hactive : d.log.active.isSome = true
  · rw [if_pos hactive] at hinStep
    rw [if_pos hactive, if_pos hactive]
    refine ⟨hinStep, h.committed, fun c hc => (by cases hc), hnames, ?_, rfl,
      rfl, h.script, ⟨h.log.pieces⟩⟩
    show e.checkpoint.getD e.project = d.checkpoint.getD d.project
    rw [h.checkpoint, h.project]
  · rw [if_neg hactive, if_neg hactive]
    exact h

theorem execute (hinitial : initial ≠ []) (h : Mirrors initial d e)
    {c : Command} (hc : c.Flat)
    (hnames : (d.execute c).2.project.DistinctNames) :
    Mirrors initial (d.execute c).2 (e.execute c).2 := by
  obtain ⟨hresult, hbegin⟩ := h.begin .general
  cases hbegun : (d.begin .general).1 with
  | error error =>
      rw [execute_of_not_begun hbegun,
        execute_of_not_begun (hresult.trans hbegun)]
      exact hbegin
  | ok =>
      -- the project after the command is that of the whole transaction, unless
      -- it is refused
      have hproject :
          ((d.begin .general).2.record c).2.project.DistinctNames := by
        cases hrecorded : ((d.begin .general).2.record c).1 with
        | error error =>
            rw [record_of_error hrecorded]
            exact hbegin.names
        | ok recorded =>
            rwa
              [execute_of_recorded hbegun hrecorded, project_commit] at hnames
      obtain ⟨hsame, hrecord⟩ := hbegin.record hc hproject
      cases hrecorded : ((d.begin .general).2.record c).1 with
      | error error =>
          rw [execute_of_not_recorded hbegun hrecorded,
            execute_of_not_recorded (hresult.trans hbegun)
              (hsame.trans hrecorded)]
          exact hrecord.abort
      | ok recorded =>
          rw [execute_of_recorded hbegun hrecorded,
            execute_of_recorded (hresult.trans hbegun) (hsame.trans hrecorded)]
          exact (hrecord.commit hinitial).2

/-- Every action keeps the two in step. -/
theorem perform (hinitial : initial ≠ []) (h : Mirrors initial d e)
    {a : Action} (ha : a.Flat) (hnames : (d.perform a).project.DistinctNames) :
    Mirrors initial (d.perform a) (e.perform a) := by
  cases a with
  | begin kind => exact (h.begin kind).2
  | record c => exact (h.record ha hnames).2
  | commit => exact (h.commit hinitial).2
  | abort => exact h.abort
  | execute c => exact h.execute hinitial ha hnames

/-- And so does a reread. -/
theorem reread (hinitial : initial ≠ []) (h : Mirrors initial d e)
    (hidle : e.log.isActive = false) :
    Mirrors initial d (e.edit e.script) := by
  have hnone : e.log.active = none := by
    unfold Log.isActive at hidle
    rwa [Option.isSome_eq_false_iff, Option.isNone_iff_eq_none] at hidle
  have hscript : e.script
      = Script.compose initial (Text.unlines (normalize e.log.lines)) := by
    rw [h.script, h.inStep.script, h.log.normalize_eq h.sound]
    rfl
  -- an idle document loses nothing by aborting
  have habort := e.abort_of_idle hnone
  have hread : (History.ofScript e.script).commands
      = normalize e.log.lines := by
    rw [hscript]
    exact h.log.commands_ofScript hinitial
  refine ⟨h.inStep, h.committed, h.pending, h.names, ?_, ?_, ?_, h.script, ?_⟩
  · show e.abort.project = d.project
    rw [habort, h.project]
  · show e.abort.checkpoint = d.checkpoint
    rw [habort, h.checkpoint]
  · show (Log.ofLines (History.ofScript e.script).commands).active
        = d.log.active
    rw [Log.active_ofLines, ← h.active, hnone]
  · show (Log.ofLines (History.ofScript e.script).commands).Resembles d.log
    rw [hread]
    exact h.log.ofLines

end Mirrors

theorem mirrors_blank (counter : Nat) (helperModule : Text) :
    Mirrors (Script.newScript helperModule) (blank counter helperModule)
      (blank counter helperModule) := by
  have hinStep := inStep_blank counter helperModule
  have hnames : Project.empty.DistinctNames :=
    fun a _ ha => absurd ha (Project.not_has_empty a)
  exact ⟨hinStep, fun c hc => (by cases hc), fun c hc => (by cases hc), hnames,
    rfl, rfl, rfl, rfl,
    (hinStep.sound (fun c hc => (by cases hc)) hnames).resembles⟩

theorem mirrors_of_rereads {counter : Nat} {helperModule : Text}
    {d e : Document} (h : Rereads counter helperModule d e) :
    Mirrors (Script.newScript helperModule) d e := by
  induction h with
  | start => exact mirrors_blank counter helperModule
  | perform a h hflat hnames ih =>
      exact ih.perform (Script.newScript_ne_nil helperModule) hflat hnames
  | reread h hidle ih =>
      exact ih.reread (Script.newScript_ne_nil helperModule) hidle

-- ======================================================== the theorem

/-- A document that reads its own script back at any times between its
transactions has the script of one that never does. -/
theorem reread_unobservable {counter : Nat} {helperModule : Text}
    {d e : Document} (h : Rereads counter helperModule d e) :
    e.script = d.script ∧ e.generatedText = d.generatedText := by
  have hmirrors := mirrors_of_rereads h
  exact ⟨hmirrors.script, hmirrors.generatedText_eq⟩

/-- The creation of a sheet with a table. -/
def layout : List Command :=
  [.createSheet "s".toList "Sheet".toList,
   .createTable ⟨"s".toList, "t".toList, [], default, 2, 2, .none⟩]

/-- A write to a cell of it. -/
def draft (v : Value) : Action :=
  .execute (.setCell "t".toList ⟨.body, 0, 0⟩ v)

theorem reread_unobservable_revision :
    let d := ((blank 0 Script.defaultModule).performAll
      (layout.map .execute)).perform (draft (.boolean true))
    let e := (d.edit d.script).perform (draft (.text "it's".toList))
    Rereads 0 Script.defaultModule (d.perform (draft (.text "it's".toList))) e
      ∧ e.script = (d.perform (draft (.text "it's".toList))).script
      ∧ e.generatedText
        = (d.perform (draft (.text "it's".toList))).generatedText := by
  intro d e
  have hstart : Rereads 0 Script.defaultModule (blank 0 Script.defaultModule)
      (blank 0 Script.defaultModule) := .start
  have hsheet := hstart.perform (.execute layout[0]) trivial (by decide)
  have htable := hsheet.perform (.execute layout[1]) trivial (by decide)
  have hdraft : Rereads 0 Script.defaultModule d d :=
    htable.perform (draft (.boolean true)) trivial (by decide)
  have hreread : Rereads 0 Script.defaultModule d (d.edit d.script) :=
    hdraft.reread rfl
  have hrevised : Rereads 0 Script.defaultModule
      (d.perform (draft (.text "it's".toList))) e :=
    hreread.perform (draft (.text "it's".toList)) trivial (by decide)
  exact ⟨hrevised, reread_unobservable hrevised⟩

end Document

end GridScript
