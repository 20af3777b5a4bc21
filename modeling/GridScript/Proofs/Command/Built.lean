/-
Commands that go through make built scripts. A table must be there before
a command can write to it, and its identifier must be free before a command
can create it; so in the order in which commands were applied each table is
created once and before its contexts (`built_replay`). The local names of
the tables have to be told apart: which of two tables a shared name stands
for changes with every binding.
-/
import GridScript.Proofs.Command.Pieces
import GridScript.Proofs.Project.Tables
import GridScript.Proofs.Script.Built

namespace GridScript

open Script
  (Piece Built createdIn tableAlias tokens creation? bindingLine projectLine)

namespace Command

-- ================================================================= calls

/-- A call of another method than those that create tables builds on
whatever there is. -/
theorem buildsOn_projectLine {method : Text} (hmethod : Text.IsWord method)
    (hother : Script.creationMethods.contains method = false) (rest : Text)
    (created : List Text) :
    (Piece.line (projectLine method rest)).BuildsOn created := by
  have hcreation := Script.creation?_projectLine hmethod hother rest
  have hdeclaration := Script.declaration?_projectLine hmethod rest
  refine ⟨?_, ?_, ?_, ?_⟩
  · intro c hc
    rw [hcreation] at hc
    cases hc
  · intro name table hd
    rw [hdeclaration] at hd
    cases hd
  · intro _ _
    exact Script.marginTarget?_projectLine hmethod rest
  · exact Script.allBlank_of_isWord (w := Script.projectName) (by decide) _

/-- A call that creates a table names it by its keyword, behind the sheet. -/
theorem creation?_projectCall {method : String}
    (hmethod : Text.IsWord method.toList)
    (hcreates : Script.creationMethods.contains method.toList = true)
    (sheetId tableId : Text) (arg : Text) (args : List Text) :
    creation? (tokens (projectCall method
        (Script.quote sheetId :: quotedKeyword "table_id" tableId :: arg
          :: args)))
      = some ⟨none, tableId, projectCall method
          (Script.quote sheetId :: quotedKeyword "table_id" tableId :: arg
            :: args)⟩ := by
  have hlast : (projectCall method
      (Script.quote sheetId :: quotedKeyword "table_id" tableId :: arg
        :: args)).getLast?
        = some ')' := by
    unfold projectCall Literal.call
    rw [List.getLast?_append, List.getLast?_cons_of_ne_nil (by simp),
      List.getLast?_concat]
    rfl
  have harguments : arguments
        (Script.quote sheetId :: quotedKeyword "table_id" tableId :: arg
          :: args)
      = Script.quote sheetId ++ (", ".toList ++ ("table_id".toList ++ '='
          :: (Script.quote tableId
            ++ (", ".toList
              ++ (Text.joinWith ", ".toList (arg :: args) ++ [')']))))) := by
    unfold arguments quotedKeyword keyword
    simp only [Text.joinWith, List.append_assoc, List.cons_append]
  rw [projectCall_eq] at hlast ⊢
  refine Script.creation?_projectLine_of_creates hmethod hcreates hlast ?_
  rw [harguments]
  exact Script.keywordString?_second (by decide) sheetId tableId _

/-- The call of a new table creates it. -/
theorem creation?_creationCall (new : NewTable) :
    creation? (tokens (creationCall new))
      = some ⟨none, new.tableId, creationCall new⟩ :=
  creation?_projectCall (by decide) (by decide) new.sheetId new.tableId _ _

theorem creation?_summaryCall (new : NewSummary) :
    creation? (tokens (summaryCall new))
      = some ⟨none, new.tableId, summaryCall new⟩ :=
  creation?_projectCall (by decide) (by decide) new.sheetId new.tableId _ _

-- ================================================================ pieces

variable {created : List Text}

/-- The creation of a table whose name is free. -/
theorem buildsOn_creation {l table call : Text}
    (h : creation? (tokens l) = some ⟨none, table, call⟩)
    (hblank : Text.allBlank l = false) (hnew : table ∉ created)
    (hother : ∀ t ∈ created, tableAlias t ≠ tableAlias table) :
    (Piece.line l).BuildsOn created := by
  refine ⟨?_, ?_, ?_, hblank⟩
  · intro c hc
    rw [h] at hc
    injection hc with hc
    rw [← hc]
    exact ⟨rfl, hnew, hother⟩
  · intro name table hd
    rw [Script.creation?_of_declaration? hd] at h
    cases h
  · intro hnone
    rw [h] at hnone
    cases hnone

theorem buildsOn_bindingLine {id : Text} (h : id ∈ created) :
    (Piece.line (bindingLine id)).BuildsOn created := by
  refine ⟨?_, ?_, ?_, ?_⟩
  · intro c hc
    rw [Script.creation?_bindingLine] at hc
    cases hc
  · intro name table hd
    rw [Script.declaration?_bindingLine] at hd
    cases hd
    exact ⟨rfl, h⟩
  · intro _ hnone
    rw [Script.declaration?_bindingLine] at hnone
    cases hnone
  · unfold bindingLine
    rw [List.append_assoc]
    exact Script.allBlank_of_isWord (Script.isWord_tableAlias id) _

/-- What the pieces of a command can be: nothing, a call, the creation of a
table, or contexts behind the binding of their table. -/
inductive Shape (c : Command) : List Piece → Prop
  | nothing (hnone : c.created? = none) : Shape c []
  | call {method : Text} (rest : Text) (hnone : c.created? = none)
      (hmethod : Text.IsWord method)
      (hother : Script.creationMethods.contains method = false) :
      Shape c [.line (projectLine method rest)]
  | creation {l table call : Text} (hcreates : c.created? = some table)
      (hread : creation? (tokens l) = some ⟨none, table, call⟩)
      (hblank : Text.allBlank l = false) : Shape c [.line l]
  | contexts {id : Text} {contexts : List Piece} (hnone : c.created? = none)
      (hid : c.tableId? = some id)
        (h : ∀ p ∈ contexts, ∃ d, p = .context d ∧ d.table = id) :
      Shape c (boundPieces id contexts)

theorem shape_pieces {c : Command} (h : c.Flat) : Shape c c.pieces := by
  have hproject : ∀ {method : String} (args : List Text), c.created? = none →
      Text.IsWord method.toList →
        Script.creationMethods.contains method.toList = false →
      Shape c ([projectCall method args].map Piece.line) := by
    intro method args hnone hmethod hother
    rw [projectCall_eq]
    exact .call (arguments args) hnone hmethod hother
  have hcall : ∀ id method args, c.created? = none →
      Shape c ([tableCall id method args].map Piece.line) := by
    intro id method args hnone
    rw [tableCall_eq]
    exact .call _ hnone (by decide) (by decide)
  have hblank : ∀ {method : String} {args : List Text},
      Text.allBlank (projectCall method args) = false := by
    intro method args
    exact Script.allBlank_of_isWord (w := Script.projectName) (by decide) _
  cases c with
  | createSheet id name => exact hproject _ rfl (by decide) (by decide)
  | renameSheet id name => exact hproject _ rfl (by decide) (by decide)
  | createTable new => exact .creation rfl (creation?_creationCall new) hblank
  | createSummary new => exact .creation rfl (creation?_summaryCall new) hblank
  | resizeTable id rows cols =>
      show Shape _ ((if (dimensions rows cols).isEmpty then []
          else [tableCall id "resize" (dimensions rows cols)]).map Piece.line)
      split
      case isTrue => exact .nothing rfl
      case isFalse => exact hcall _ _ _ rfl
  | minimizeTable id size =>
      show Shape _
          ((if size.isSome then [tableCall id "minimize" []] else []).map
            Piece.line)
      split
      case isTrue => exact hcall _ _ _ rfl
      case isFalse => exact .nothing rfl
  | setCells id cells => exact .contexts rfl rfl (contexts_regions id _ _)
  | setRange id start values =>
      exact .contexts rfl rfl (contexts_blockPieces id _ _)
  | setFormula id target formula =>
      cases target with
      | range r =>
          show Shape _ ((formulaLines id (.range r) formula).map Piece.line)
          unfold formulaLines
          split <;> exact hcall _ _ _ rfl
      | cell c =>
          rw [pieces]
          split
          case isTrue hclears =>
              rw [render, formulaLines, if_pos hclears]
              exact hcall _ _ _ rfl
          case isFalse => exact .contexts rfl rfl (contexts_blockPieces id _ _)
  | script lines => exact h.elim
  | _ => exact hcall _ _ _ rfl

theorem createdIn_contexts {id : Text} {ps : List Piece}
    (h : ∀ p ∈ ps, ∃ d, p = .context d ∧ d.table = id) :
    createdIn ps = [] := by
  unfold createdIn
  rw [List.filterMap_eq_nil_iff]
  intro p hp
  obtain ⟨d, rfl, -⟩ := h p hp
  rfl

/-- The pieces of a command create what the command creates. -/
theorem createdIn_pieces {c : Command} (h : c.Flat) :
    createdIn c.pieces = c.created?.toList := by
  have hshape := shape_pieces h
  generalize c.pieces = ps at hshape ⊢
  cases hshape with
  | nothing hnone =>
      rw [hnone]
      rfl
  | call rest hnone hmethod hother =>
      rw [hnone, Script.createdIn_cons, Piece.created?,
        Script.creation?_projectLine hmethod hother]
      rfl
  | creation hcreates hread hblank =>
      rw [hcreates, Script.createdIn_cons, Piece.created?, hread]
      rfl
  | contexts hnone hid hcontexts =>
      rw [hnone]
      unfold boundPieces
      split
      case isTrue => rfl
      case isFalse =>
          rw [Script.createdIn_cons, createdIn_contexts hcontexts,
            Piece.created?, Script.creation?_bindingLine]
          rfl

theorem built_contexts {id : Text} (hid : id ∈ created) {ps : List Piece}
    (h : ∀ p ∈ ps, ∃ d, p = .context d ∧ d.table = id) : Built created ps := by
  induction ps with
  | nil => trivial
  | cons p ps ih =>
      obtain ⟨c, rfl, rfl⟩ := h p List.mem_cons_self
      exact ⟨hid, ih fun q hq => h q (List.mem_cons_of_mem _ hq)⟩

/-- Contexts of a table that is there, behind its binding. -/
theorem built_boundPieces {id : Text} (hid : id ∈ created)
    {contexts : List Piece}
    (h : ∀ p ∈ contexts, ∃ d, p = .context d ∧ d.table = id) :
    Built created (boundPieces id contexts) := by
  unfold boundPieces
  split
  case isTrue => trivial
  case isFalse =>
      refine ⟨buildsOn_bindingLine hid, ?_⟩
      rw [Piece.created?, Script.creation?_bindingLine]
      exact built_contexts hid h

/-- The pieces of a command that goes through build on the tables that are
there. -/
theorem built_pieces {p q : Project} {c : Command} (h : c.apply p = .ok q)
    (hflat : c.Flat) (hcreated : ∀ t, t ∈ created ↔ p.Has t)
    (hnames : q.DistinctNames) :
    Built created c.pieces := by
  obtain ⟨hfresh, hhas⟩ := has_apply h
  have hshape := shape_pieces hflat
  generalize c.pieces = ps at hshape ⊢
  cases hshape with
  | nothing hnone => trivial
  | call rest hnone hmethod hother =>
      exact ⟨buildsOn_projectLine hmethod hother rest created, trivial⟩
  | @creation l table call hcreates hread hblank =>
      -- a new table has a name that no other table has
      refine ⟨buildsOn_creation hread hblank ?_ ?_, trivial⟩
      · exact fun hin => hfresh table hcreates ((hcreated table).1 hin)
      · intro t ht halias
        have hold := (hcreated t).1 ht
        have heq := hnames t table ((hhas t).2 (Or.inl hold))
          ((hhas table).2 (Or.inr hcreates)) halias
        exact hfresh table hcreates (heq ▸ hold)
  | contexts hnone hid hcontexts =>
      exact built_boundPieces ((hcreated _).2 (has_of_apply h hid hnone))
        hcontexts

end Command

-- =============================================================== replays

/-- Flat commands that were replayed make a built script, which creates the
tables of the project. -/
theorem built_replay {p q : Project} {cs : List Command}
    (h : p.replay cs = .ok q) (hflat : ∀ c ∈ cs, c.Flat)
    (hnames : q.DistinctNames) {created : List Text} (hcreated : ∀ t,
      t ∈ created ↔ p.Has t) : Built created (cs.flatMap Command.pieces) := by
  induction cs generalizing p created with
  | nil => trivial
  | cons c cs ih =>
      obtain ⟨p', hc, hrest⟩ := Project.exists_replay_of_append (a := [c]) h
      rw [Project.replay_singleton] at hc
      have hnames' := hnames.of_replay hrest
      have hfirst := hflat c List.mem_cons_self
      rw [List.flatMap_cons, Script.built_append]
      refine ⟨Command.built_pieces hc hfirst hcreated hnames',
        ih hrest (fun d hd => hflat d (List.mem_cons_of_mem c hd)) ?_⟩
      intro t
      rw [Command.createdIn_pieces hfirst, List.mem_append, Option.mem_toList,
        hcreated, (Command.has_apply hc).2 t, or_comm]

end GridScript
