/-
No silent changes. Three functions tell commands apart by themselves: which
are idle, what each does to a project, and which lines it is written as.
They agree: an idle command that goes through changes nothing
(`eq_of_isIdle`), and one that is not idle is written as one line at least
(`render_ne_nil`). So whatever a recorded or executed command changes in
the project of a document, its lines are in the log (`no_silent_change`).

A cell edit that is merged into the one before it leaves its lines too: the
merged edit has its cells among others, with its values
(`render_sublist_merge`).

# The invariants

`Log.Lined` is about the entries: each is written as a line at least, and
no transaction is committed without one. `Told` is about the project in the
course of actions, in two parts, of which each is empty only if nothing has
changed: the lines that were committed lead to the baseline, and those of
the active transaction on from there.
-/
import GridScript.Proofs.Command.CellEdits
import GridScript.Proofs.Document.Undoing
import Mathlib.Data.List.Flatten

namespace GridScript

-- ========================================================= idle commands

/-- A table that is put in its own place. -/
theorem Project.eq_of_changeTable {p q : Project} {id : Text}
    {f : Table → Table} (h : p.changeTable id f = .ok q) (hf : ∀ t, f t = t) :
    q = p := by
  obtain ⟨t, ht, rfl⟩ := changeTable_eq_ok h
  have htables : p.tables.insert id (f t) = p.tables := by
    apply SortedMap.ext_get?
    intro k
    rw [SortedMap.get?_insert_eq, hf]
    by_cases hk : id = k
    · rw [if_pos hk, ← hk]
      exact ht.symm
    · rw [if_neg hk]
  rw [htables]

namespace Command

open Script (headerLine bindingLine)

/-- Rows of values fill no cell exactly if they are all empty. -/
theorem rangeCells_eq_nil_iff {start : Cell} {values : List (List Value)} :
    rangeCells start values = [] ↔ values.all List.isEmpty = true := by
  have hrows : (∀ row ∈ values, row = []) ↔ ∀ e ∈ values.zipIdx, e.1 = [] := by
    rw [← List.forall_mem_map (f := Prod.fst) (P := fun row => row = []),
      List.zipIdx_map_fst]
  rw [List.all_eq_true]
  simp only [List.isEmpty_iff]
  rw [hrows]
  unfold rangeCells
  simp only [List.flatMap_eq_nil_iff, List.map_eq_nil_iff,
    List.zipIdx_eq_nil_iff]

/-- An idle command that goes through changes nothing. -/
theorem eq_of_isIdle {c : Command} (hidle : c.isIdle = true) {p q : Project}
    (h : c.apply p = .ok q) : q = p := by
  cases c with
  | resizeTable id rows cols =>
      rw [isIdle, Bool.and_eq_true, Option.isNone_iff_eq_none,
        Option.isNone_iff_eq_none] at hidle
      obtain ⟨rfl, rfl⟩ := hidle
      exact Project.eq_of_changeTable h fun t => rfl
  | minimizeTable id size =>
      rw [isIdle, Option.isNone_iff_eq_none] at hidle
      subst hidle
      exact Project.eq_of_changeTable h fun t => rfl
  | setCells id cells =>
      have hempty : cells.entries = [] := List.isEmpty_iff.1 hidle
      rw [apply, hempty] at h
      exact Project.eq_of_changeTable h fun t => rfl
  | setRange id start values =>
      have hempty : rangeCells start values = [] :=
        rangeCells_eq_nil_iff.2 hidle
      rw [apply, hempty] at h
      exact Project.eq_of_changeTable h fun t => rfl
  | insertRows id at_ count =>
      rw [isIdle, beq_iff_eq] at hidle
      subst hidle
      exact Project.eq_of_changeTable h fun t => rfl
  | insertCols id at_ count =>
      rw [isIdle, beq_iff_eq] at hidle
      subst hidle
      exact Project.eq_of_changeTable h fun t => rfl
  | script lines =>
      injection h with hq
      exact hq.symm
  | _ => cases hidle

-- ================================================================= lines

theorem blockLines_ne_nil {id : Text} {region : Region}
    {statements : List Text} (h : statements ≠ []) :
    blockLines id region statements ≠ [] := by
  cases statements with
  | nil => exact absurd rfl h
  | cons l ls => exact List.cons_ne_nil _ _

theorem bound_ne_nil {id : Text} {lines : List Text} (h : lines ≠ []) :
    bound id lines ≠ [] := by
  cases lines with
  | nil => exact absurd rfl h
  | cons l ls => exact List.cons_ne_nil _ _

theorem formulaLines_ne_nil (id : Text) (target : Target) (formula : Text) :
    formulaLines id target formula ≠ [] := by
  unfold formulaLines
  split
  next => exact List.cons_ne_nil _ _
  next =>
      cases target with
      | cell c => exact bound_ne_nil (blockLines_ne_nil (List.cons_ne_nil _ _))
      | range r => exact List.cons_ne_nil _ _

/-- A command that is not idle is written as one line at least. -/
theorem render_ne_nil {c : Command} (h : c.isIdle = false) :
    c.render ≠ [] := by
  cases c with
  | resizeTable id rows cols =>
      have hargs : (dimensions rows cols).isEmpty = false := by
        cases rows with
        | some rows => rfl
        | none =>
            cases cols with
            | some cols => rfl
            | none => cases h
      simp only [render, hargs, Bool.false_eq_true, if_false]
      exact List.cons_ne_nil _ _
  | minimizeTable id size =>
      cases size with
      | none => cases h
      | some size => exact List.cons_ne_nil _ _
  | setCells id cells =>
      obtain ⟨e, he⟩ := List.isEmpty_eq_false_iff_exists_mem.1 h
      obtain ⟨_, -, -, -, -, hfilled⟩ := assignsOnce_render id cells
      have hvalue : cells.get? e.1 ≠ none := by
        rw [SortedMap.get?_eq_some_iff.2 he]
        exact Option.some_ne_none _
      rw [hfilled ⟨e.1, hvalue⟩]
      exact List.cons_ne_nil _ _
  | setRange id start values =>
      have hcells : rangeCells start values ≠ [] := by
        rw [ne_eq, rangeCells_eq_nil_iff, Bool.not_eq_true]
        exact h
      exact bound_ne_nil (blockLines_ne_nil (by simpa using hcells))
  | setFormula id target formula => exact formulaLines_ne_nil id target formula
  | script lines =>
      exact fun hnil => by rw [render] at hnil; rw [hnil] at h; cases h
  | _ => exact List.cons_ne_nil _ _

-- =============================================================== merging

theorem blockLines_sublist {id : Text} {region : Region} {ls ms : List Text}
    (h : ls.Sublist ms) :
    (blockLines id region ls).Sublist (blockLines id region ms) := by
  cases ls with
  | nil => exact List.nil_sublist _
  | cons l ls =>
      cases ms with
      | nil => cases h
      | cons m ms => exact (h.map _).cons_cons (headerLine id region)

theorem bound_sublist {id : Text} {ls ms : List Text} (h : ls.Sublist ms) :
    (bound id ls).Sublist (bound id ms) := by
  cases ls with
  | nil => exact List.nil_sublist _
  | cons l ls =>
      cases ms with
      | nil => cases h
      | cons m ms => exact h.cons_cons (bindingLine id)

/-- The lines of some cells are a part of the lines of more. -/
theorem render_sublist {id : Text} {m n : SortedMap Cell Value}
    (h : m.entries ⊆ n.entries) :
    (render (.setCells id m)).Sublist (render (.setCells id n)) := by
  have hsorted : (cellsByText m.entries).Sublist (cellsByText n.entries) := by
    refine (increasing_cellsByText m.nodup_keys).sublist
      (increasing_cellsByText n.nodup_keys) ?_
    intro e he
    exact mem_cellsByText.2 (h (mem_cellsByText.1 he))
  refine bound_sublist
    (List.Sublist.flatMap_right _ fun region _ => blockLines_sublist ?_)
  exact (hsorted.filter _).map _

/-- The lines of a command are a part of those of the command that it is
merged into. -/
theorem render_sublist_merge {first later both : Command}
    (h : first.merge? later = some both) :
    later.render.Sublist both.render := by
  obtain ⟨id, cells, others, -, rfl, rfl⟩ := merge?_cases h
  refine render_sublist fun e he => ?_
  rw [← SortedMap.get?_eq_some_iff (k := e.1) (v := e.2)] at he ⊢
  rw [SortedMap.get?_foldl_insert, SortedMap.lastEntry_entries, he]
  rfl

end Command

namespace Transaction

/-- A command that is recorded leaves its lines in the transaction, merged
or not. -/
theorem render_sublist_record (t : Transaction) (c : Command) :
    c.render.Sublist (t.record c).lines := by
  unfold lines
  rcases t.record_cases c with hlast | ⟨before, last, merged, -, hmerge, hlast⟩
    <;>
    rw [hlast, List.flatMap_append, List.flatMap_singleton]
  · exact List.sublist_append_right _ _
  · exact (Command.render_sublist_merge hmerge).trans
      (List.sublist_append_right _ _)

/-- A transaction in which a command is recorded that is not idle has a
line. -/
theorem lines_record_ne_nil (t : Transaction) {c : Command}
    (h : c.isIdle = false) :
    (t.record c).lines ≠ [] := by
  intro hnil
  have hsublist := t.render_sublist_record c
  rw [hnil] at hsublist
  exact Command.render_ne_nil h (List.sublist_nil.1 hsublist)

theorem lines_eq_nil {t : Transaction} (h : t.commands.isEmpty = true) :
    t.lines = [] := by
  unfold lines
  rw [List.isEmpty_iff.1 h]
  rfl

/-- Every command of the transaction is written as a line at least. -/
def Lined (t : Transaction) : Prop := ∀ c ∈ t.commands, c.render ≠ []

theorem lined_singleton {kind : TransactionKind} {c : Command}
    (h : c.render ≠ []) :
    Lined ⟨kind, [c]⟩ := List.forall_mem_singleton.2 h

theorem Lined.record {t : Transaction} (h : t.Lined) {c : Command}
    (hidle : c.isIdle = false) :
    (t.record c).Lined := by
  have hc := Command.render_ne_nil hidle
  unfold Lined at h ⊢
  rcases t.record_cases c
    with hlast | ⟨before, last, merged, hcommands, hmerge, hlast⟩ <;>
    rw [hlast, List.forall_mem_append, List.forall_mem_singleton]
  · exact ⟨h, hc⟩
  · rw [hcommands, List.forall_mem_append] at h
    refine ⟨h.1, fun hnil => hc ?_⟩
    have hsublist := Command.render_sublist_merge hmerge
    rw [hnil] at hsublist
    exact List.sublist_nil.1 hsublist

end Transaction

-- ================================================================== logs

namespace Log

/-- Every command in the log is written as a line at least, and there is one
in every committed transaction. -/
structure Lined (l : Log) : Prop where
  committed : ∀ t ∈ l.committed, t.commands ≠ [] ∧ t.Lined
  active : ∀ t, l.active = some t → t.Lined

theorem lined_ofLines (ls : List Text) : (ofLines ls).Lined := by
  refine ⟨fun t ht => ?_, fun t ht => ?_⟩
  · unfold ofLines at ht
    split at ht
    case isTrue => cases ht
    case isFalse hempty =>
        rw [List.mem_singleton.1 ht]
        refine ⟨List.cons_ne_nil _ _,
          Transaction.lined_singleton fun hnil => hempty ?_⟩
        rw [List.isEmpty_iff]
        exact hnil
  · rw [active_ofLines] at ht
    cases ht

theorem Lined.dropped {l : Log} (h : l.Lined) : Lined ⟨l.committed, none⟩ :=
  ⟨h.committed, fun t ht => by cases ht⟩

theorem Lined.concat {l : Log} (h : l.Lined) {t : Transaction}
    (hne : t.commands ≠ []) (ht : t.Lined) :
    Lined ⟨l.committed ++ [t], none⟩ := by
  refine ⟨?_, fun t ht => by cases ht⟩
  rw [List.forall_mem_append, List.forall_mem_singleton]
  exact ⟨h.committed, hne, ht⟩

end Log

-- ============================================================= documents

/-- A transaction with a line is kept. -/
theorem Log.commit_of_lines (before : List Transaction) {t : Transaction}
    (h : t.lines ≠ []) :
    Log.commit ⟨before, some t⟩ = .ok (t, ⟨before ++ [t], none⟩) := by
  unfold Log.commit
  simp only [if_neg fun hempty => h (Transaction.lines_eq_nil hempty)]

/-- The lines of the last transaction come last, whatever is active. -/
theorem Log.lines_concat (before : List Transaction) (t : Transaction)
    (active active' : Option Transaction) :
    Log.lines ⟨before ++ [t], active⟩
      = Log.lines ⟨before, active'⟩ ++ t.lines := by
  unfold Log.lines
  rw [List.flatMap_append, List.flatMap_singleton]

/-- What goes through is not idle if it changes something. -/
theorem Command.isIdle_eq_false_of_ne {c : Command} {p q : Project}
    (h : c.apply p = .ok q) (hne : q ≠ p) : c.isIdle = false := by
  rw [Bool.eq_false_iff]
  intro hidle
  exact hne (eq_of_isIdle hidle h)

namespace Document

variable {d e : Document}

/-- What is recorded is not idle. -/
theorem isIdle_of_record {c : Command} (h : (d.record c).1 = .ok true) :
    c.isIdle = false := by
  rw [Bool.eq_false_iff]
  intro hidle
  unfold record at h
  rw [if_pos hidle] at h
  split at h <;> cases h

/-- What is executed is not idle. -/
theorem isIdle_of_execute {c : Command} (h : (d.execute c).1 = .ok true) :
    c.isIdle = false := by
  unfold execute at h
  rcases hbegin : d.begin .general with ⟨_ | _, e⟩ <;> rw [hbegin] at h
  case error => cases h
  simp only at h
  rcases hrecord : e.record c with ⟨_ | recorded, f⟩ <;> rw [hrecord] at h
  case error => cases h
  simp only at h
  rcases hcommit : f.commit with ⟨_ | _, g⟩ <;> rw [hcommit] at h
  case error => cases h
  exact isIdle_of_record ((congrArg Prod.fst hrecord).trans h)

/-- Nothing that is done to a document leaves an empty entry in its log. -/
theorem lined_perform (h : d.log.Lined) (a : Action) :
    (d.perform a).log.Lined := by
  cases a with
  | begin kind =>
      show (d.begin kind).2.log.Lined
      rcases d.begin_cases kind with ⟨-, hbegin⟩ | ⟨-, hbegin⟩ <;> rw [hbegin]
      · exact h
      · refine ⟨h.committed, fun t ht => ?_⟩
        injection ht with ht
        rw [← ht]
        exact fun c hc => by cases hc
  | record c =>
      show (d.record c).2.log.Lined
      rcases d.record_cases c with ⟨-, hsame⟩ | ⟨t, p, hactive, -, hrecord⟩
      · rwa [hsame]
      -- an idle command is not recorded
      · have hidle := isIdle_of_record (congrArg Prod.fst hrecord)
        rw [hrecord]
        refine ⟨h.committed, fun u hu => ?_⟩
        injection hu with hu
        rw [← hu]
        exact (h.active t hactive).record hidle
  | commit =>
      show d.commit.2.log.Lined
      rcases d.commit_cases with ⟨-, hcommit⟩ | ⟨t, hactive, hcommit⟩
        <;> rw [hcommit]
      · exact h
      · simp only
        split
        -- an empty transaction is not kept
        case isTrue => exact h.dropped
        case isFalse hempty =>
            exact h.concat (fun hnil => hempty (List.isEmpty_iff.2 hnil))
              (h.active t hactive)
  | abort =>
      show d.abort.log.Lined
      rcases d.abort_cases with ⟨-, habort⟩ | ⟨t, -, habort⟩ <;> rw [habort]
      · exact h
      · exact h.dropped
  | execute c =>
      show (d.execute c).2.log.Lined
      rcases d.execute_cases c
        with ⟨-, hsame, -⟩ | ⟨-, hsettled, -⟩ | ⟨p, -, -, hexecute⟩
      · rwa [hsame]
      · rw [hsettled]
        exact h.dropped
      -- nor is an idle command executed
      · have hidle := isIdle_of_execute (congrArg Prod.fst hexecute)
        rw [hexecute]
        exact h.concat (List.cons_ne_nil _ _)
          (Transaction.lined_singleton (Command.render_ne_nil hidle))

theorem lined_work (h : d.log.Lined) (w : Work) : (d.work w).log.Lined := by
  cases w with
  | action a => exact lined_perform h a
  | beginRun cs => exact h
  | result cs t result =>
      show (d.applyResult cs t result).2.log.Lined
      rw [applyResult_eq]
      split
      next run _ =>
          split
          case isTrue =>
              cases result with
              | error e => exact h
              | ok output => exact Log.lined_ofLines _
          case isFalse => exact h
      next => exact h

theorem Reached.lined (h : Reached d) : d.log.Lined := by
  induction h with
  | start counter o =>
      cases o with
      | blank helperModule => exact Log.lined_ofLines []
      | script s history path => exact Log.lined_ofLines _
  | work w _ ih => exact lined_work ih w
  | edit script _ _ => exact Log.lined_ofLines _
  | saved path _ ih => exact ih

/-- The log of the second document goes on from that of the first. What has
changed in the project since is in lines: in committed ones as far as the
baseline, and in those of the active transaction from there. -/
structure Told (d e : Document) : Prop where
  committed : ∃ more, e.log.lines = d.log.lines ++ more
    ∧ (e.baseline ≠ d.project → more ≠ [])
  active : e.project ≠ e.baseline → ∃ t, e.log.active = some t ∧ t.lines ≠ []

namespace Told

theorem refl (hchecked : d.Checked) (hidle : d.log.active = none) :
    Told d d := by
  have hbaseline : d.baseline = d.project := by
    unfold baseline
    rw [hchecked.checkpoint_eq hidle]
    rfl
  exact ⟨⟨[], (List.append_nil _).symm, fun hne => absurd hbaseline hne⟩,
    fun hne => absurd hbaseline.symm hne⟩

/-- With no transaction active, the project is the baseline. -/
theorem project_eq (h : Told d e) (hidle : e.log.active = none) :
    e.project = e.baseline := by
  by_contra hne
  obtain ⟨t, ht, -⟩ := h.active hne
  rw [hidle] at ht
  cases ht

theorem begin (h : Told d e) (kind : TransactionKind) :
    Told d (e.begin kind).2 := by
  rcases e.begin_cases kind with ⟨-, hbegin⟩ | ⟨hidle, hbegin⟩
  · rwa [hbegin]
  · rw [hbegin]
    have hbaseline : (e.begun kind).baseline = e.baseline := h.project_eq hidle
    refine ⟨?_, fun hne => absurd rfl hne⟩
    rw [hbaseline]
    exact h.committed

theorem record (h : Told d e) (hchecked : e.Checked) (c : Command) :
    Told d (e.record c).2 := by
  rcases e.record_cases c with ⟨-, hsame⟩ | ⟨t, p, hactive, -, hrecord⟩
  · rwa [hsame]
  · have hlines : (t.record c).lines ≠ [] :=
      t.lines_record_ne_nil (isIdle_of_record (congrArg Prod.fst hrecord))
    obtain ⟨b, hb⟩ : ∃ b, e.checkpoint = some b := by
      rw [← Option.isSome_iff_exists, hchecked, Log.isActive, hactive]
      rfl
    have hbaseline : ({ e with
        project := p
        log := ⟨e.log.committed, some (t.record c)⟩ } : Document).baseline
          = e.baseline := by
      unfold baseline
      rw [hb]
      rfl
    rw [hrecord]
    refine ⟨?_, fun _ => ⟨t.record c, rfl, hlines⟩⟩
    rw [hbaseline]
    exact h.committed

/-- A transaction is committed with its lines. -/
theorem extended (h : Told d e) {p : Project} {t : Transaction}
    (ht : p ≠ e.baseline → t.lines ≠ []) :
    Told d ({ e with project := p : Document }.extended t) := by
  obtain ⟨more, hmore, hchanged⟩ := h.committed
  refine ⟨⟨more ++ t.lines, ?_, ?_⟩, fun hne => absurd rfl hne⟩
  · rw [← List.append_assoc, ← hmore]
    exact Log.lines_concat e.log.committed t none e.log.active
  · intro hne hnil
    obtain ⟨rfl, hnone⟩ := List.append_eq_nil_iff.1 hnil
    replace hne : p ≠ d.project := hne
    by_cases hbaseline : p = e.baseline
    · exact hchanged (hbaseline ▸ hne) rfl
    · exact ht hbaseline hnone

/-- What is left of a transaction without lines, or of one that is dropped,
is the baseline. -/
theorem settled (h : Told d e) :
    Told d { e.settled with project := e.baseline } :=
  ⟨h.committed, fun hne => absurd rfl hne⟩

theorem commit (h : Told d e) : Told d e.commit.2 := by
  rcases e.commit_cases with ⟨-, hcommit⟩ | ⟨t, hactive, hcommit⟩
    <;> rw [hcommit]
  · exact h
  · have ht : e.project ≠ e.baseline → t.lines ≠ [] := by
      intro hne
      obtain ⟨u, hu, hlines⟩ := h.active hne
      rw [hactive] at hu
      injection hu with hu
      rwa [hu]
    simp only
    split
    case isTrue hempty =>
        have hproject : e.project = e.baseline := by
          by_contra hne
          exact ht hne (Transaction.lines_eq_nil hempty)
        have hsettled := h.settled
        rwa [← hproject] at hsettled
    case isFalse => exact h.extended ht

theorem abort (h : Told d e) : Told d e.abort := by
  rcases e.abort_cases with ⟨-, habort⟩ | ⟨t, -, habort⟩ <;> rw [habort]
  · exact h
  · exact h.settled

theorem execute (h : Told d e) (c : Command) : Told d (e.execute c).2 := by
  rcases e.execute_cases c
    with ⟨-, hsame, -⟩ | ⟨-, hsettled, hidle⟩ | ⟨p, hidle, happly, hexecute⟩
  · rwa [hsame]
  · rw [hsettled]
    have hsettle := h.settled
    rwa [← h.project_eq hidle] at hsettle
  · rw [hexecute]
    refine h.extended fun hne => ?_
    rw [← h.project_eq hidle] at hne
    have hlines : Transaction.lines ⟨.general, [c]⟩ = c.render :=
      List.append_nil _
    rw [hlines]
    exact Command.render_ne_nil (Command.isIdle_eq_false_of_ne happly hne)

theorem perform (h : Told d e) (hchecked : e.Checked) (a : Action) :
    Told d (e.perform a) := by
  cases a with
  | begin kind => exact h.begin kind
  | record c => exact h.record hchecked c
  | commit => exact h.commit
  | abort => exact h.abort
  | execute c => exact h.execute c

theorem performAll (h : Told d e) (hchecked : e.Checked) (as : List Action) :
    Told d (e.performAll as) := by
  induction as generalizing e with
  | nil => exact h
  | cons a as ih =>
      exact ih (h.perform hchecked a)
        ((KeepsRuns.change e (.action a)).checked hchecked)

end Told

-- =========================================================== the theorem

/-- Idle commands change nothing, and others are written as a line at
least; so a document's project is changed by recording or executing a
command only if the command has lines and they are in the log, behind those
that were there: at once if it is executed, and with its transaction if it
is recorded.

So it is in the course of any actions: there is no empty entry in the log of
a document that can be reached, and the project is changed only if the log
has more lines or the active transaction has some. -/
theorem no_silent_change :
    (∀ (c : Command) (p q : Project), c.isIdle = true →
      c.apply p = .ok q → q = p)
      ∧ (∀ c : Command, c.isIdle = false → c.render ≠ [])
      ∧ (∀ (d : Document) (c : Command), (d.record c).2.project ≠ d.project →
        c.render ≠ [] ∧ ∃ t l, (d.record c).2.log.commit = .ok (t, l)
          ∧ l.lines = d.log.lines ++ t.lines ∧ c.render.Sublist t.lines)
      ∧ (∀ (d : Document) (c : Command), (d.execute c).2.project ≠ d.project →
        c.render ≠ [] ∧ (d.execute c).2.log.lines = d.log.lines ++ c.render)
      ∧ ∀ d : Document, Reached d → d.log.Lined
        ∧ (d.log.active = none → ∀ as : List Action,
          ∃ more, (d.performAll as).log.lines = d.log.lines ++ more
            ∧ ((d.performAll as).project ≠ d.project →
              more ≠ [] ∨ ∃ t, (d.performAll as).log.active = some t
                ∧ t.lines ≠ [])) := by
  refine ⟨fun c p q hidle h => Command.eq_of_isIdle hidle h,
    fun c h => Command.render_ne_nil h, ?_, ?_,
    fun d hreached => ⟨hreached.lined, ?_⟩⟩
  · intro d c hchanged
    rcases d.record_cases c with ⟨-, hsame⟩ | ⟨t, p, hactive, happly, hrecord⟩
    · exact absurd (congrArg Document.project hsame) hchanged
    -- what changed the project is not idle, so it has a line
    · rw [hrecord] at hchanged ⊢
      have hidle : c.isIdle = false :=
        Command.isIdle_eq_false_of_ne happly hchanged
      have hcommit :=
        Log.commit_of_lines d.log.committed (t.lines_record_ne_nil hidle)
      have hmore :=
        Log.lines_concat d.log.committed (t.record c) none d.log.active
      exact ⟨Command.render_ne_nil hidle, t.record c, _, hcommit, hmore,
        t.render_sublist_record c⟩
  · intro d c hchanged
    rcases d.execute_cases c
      with ⟨-, hsame, -⟩ | ⟨-, hsettled, -⟩ | ⟨p, -, happly, hexecute⟩
    · exact absurd (congrArg Document.project hsame) hchanged
    · exact absurd (congrArg Document.project hsettled) hchanged
    · rw [hexecute] at hchanged ⊢
      have hrender :=
        Command.render_ne_nil (Command.isIdle_eq_false_of_ne happly hchanged)
      have hlines : Transaction.lines ⟨.general, [c]⟩ = c.render :=
        List.append_nil _
      have hmore :=
        Log.lines_concat d.log.committed ⟨.general, [c]⟩ none d.log.active
      rw [hlines] at hmore
      exact ⟨hrender, hmore⟩
  · intro hidle as
    have hchecked := hreached.checked
    obtain ⟨⟨more, hmore, hcommitted⟩, hactive⟩ :=
      (Told.refl hchecked hidle).performAll hchecked as
    refine ⟨more, hmore, fun hchanged => ?_⟩
    -- what is not in the committed lines is in those still active
    by_cases hbaseline : (d.performAll as).project = (d.performAll as).baseline
    · exact Or.inl (hcommitted (hbaseline ▸ hchanged))
    · exact Or.inr (hactive hbaseline)

/-- A sheet with a table, one cell of which is being typed into. -/
def typing : Document :=
  (blank 0 Script.defaultModule).performAll
    [.execute onlySheet,
     .execute
       (.createTable
         ⟨"s".toList, "t".toList, "T".toList, default, 1, 1, .none⟩),
     .begin .cellEdit,
     .record (.setCell "t".toList ⟨.body, 0, 0⟩ (.boolean true))]

/-- What is typed next, into the same cell. -/
def retyped : Command := .setCell "t".toList ⟨.body, 0, 0⟩ (.boolean false)

/-- No rows. -/
def noRows : Command := .insertRows "t".toList 0 0

def otherSheet : Command := .createSheet "r".toList "R".toList

/-- Another sheet, made in two transactions, of which one is dropped. -/
def madeAgain : List Action :=
  [.begin .general, .record otherSheet, .abort, .begin .cellEdit,
    .record otherSheet]

theorem no_silent_change_typing :
    noRows.isIdle = true
      ∧ (∃ q, noRows.apply typing.project = .ok q ∧ q = typing.project)
      ∧ retyped.isIdle = false ∧ retyped.render ≠ []
      ∧ (typing.record retyped).2.project ≠ typing.project
      ∧ (∃ t l, (typing.record retyped).2.log.commit = .ok (t, l)
        ∧ l.lines = typing.log.lines ++ t.lines
        ∧ retyped.render.Sublist t.lines)
      ∧ (awaiting.execute otherSheet).2.project ≠ awaiting.project
      ∧ (awaiting.execute otherSheet).2.log.lines
        = awaiting.log.lines ++ otherSheet.render
      ∧ Reached awaiting ∧ awaiting.log.Lined ∧ awaiting.log.active = none
      ∧ (awaiting.performAll madeAgain).project ≠ awaiting.project
      ∧ ∃ more,
        (awaiting.performAll madeAgain).log.lines = awaiting.log.lines ++ more
        ∧ (more ≠ [] ∨ ∃ t, (awaiting.performAll madeAgain).log.active = some t
          ∧ t.lines ≠ []) := by
  obtain ⟨hidle, hlines, hrecord, hexecute, hreachable⟩ := no_silent_change
  obtain ⟨q, happly⟩ : ∃ q, noRows.apply typing.project = .ok q := ⟨_, rfl⟩
  have hretyped : (typing.record retyped).2.project ≠ typing.project := by
    decide
  have hother : (awaiting.execute otherSheet).2.project
      ≠ awaiting.project := by decide
  have hreached : Reached awaiting :=
    .work _ (.work _ (.start 0 (.blank Script.defaultModule)))
  obtain ⟨hlined, hrun⟩ := hreachable awaiting hreached
  obtain ⟨more, hmore, htold⟩ := hrun rfl madeAgain
  have hmade : (awaiting.performAll madeAgain).project ≠ awaiting.project := by
    decide
  exact ⟨rfl, ⟨q, happly, hidle _ _ _ rfl happly⟩, rfl, hlines _ rfl,
    hretyped, (hrecord _ _ hretyped).2, hother, (hexecute _ _ hother).2,
    hreached, hlined, rfl, hmade, more, hmore, htold hmade⟩

end Document

end GridScript
