/-
What becomes of the body of a table that a script creates. Its literals
are written where the table is created and the other statements are left
where they are, so if nothing is written to the table before, its body is
in the normal form what it was, but with all literals in front
(`bodyIn_normalPieces`).

Two statements that assign one cell keep their order if both are literals
or neither is. A literal that stood behind another assignment of its cell
has moved in front of it.
-/
import GridScript.Proofs.Script.Idempotent

namespace GridScript.Script

variable {plan : Plan} {p : Progress} {s : Stage} {t : Text}

-- ================================================================= steps

/-- The literals of a table that the script creates are not written at its
references. -/
theorem bodyIn_settle (hcreated : t ∈ plan.created) (table : Text) :
    bodyIn (settle plan p table).1 t = [] := by
  unfold settle
  split
  case isTrue => rfl
  case isFalse hnew =>
      rw [bodyIn_flush, if_neg]
      rintro ⟨rfl, -⟩
      exact hnew hcreated

/-- A step writes all literals of a table that it creates, unless they are
written, and leaves the other statements in place. -/
theorem bodyIn_step (hnoticed : s.progress.Noticed plan)
    (hcreated : t ∈ plan.created) {x : Piece} (hx : x.ResolvesIn s.names) :
    bodyIn (s.step plan x).1 t
      = (if x.created? = some t ∧ t ∉ s.progress.flushed then plan.data t
        else [])
        ++ (x.body t).filter fun st => !st.isData := by
  cases x with
  | context c =>
      rw [Stage.step_context hnoticed hx, bodyIn_append,
        bodyIn_settle hcreated, bodyIn_writeContext, body_kept, if_neg]
      rintro ⟨hnone, -⟩
      cases hnone
  | line l =>
      have hbody : (Piece.line l).body t = [] := rfl
      rw [hbody, List.filter_nil, List.append_nil]
      rcases Piece.cases_line l
        with ⟨c, hc⟩ | ⟨name, table, hd⟩ | ⟨hcreation, hdeclaration⟩
      -- a creation is where the literals of its table are written
      · have hsame : (s.progress.bind
            (c.binding.getD (tableAlias c.table)) c.table).flushed
            = s.progress.flushed := rfl
        have htable : (Piece.line l).created? = some c.table := by
          rw [Piece.created?, hc]
          rfl
        rw [Stage.step_creation hc, bodyIn_cons, bodyIn_flush, hsame, htable]
        simp only [Option.some.injEq, eq_comm]
        rfl
      -- a declaration is not, for a table that is created
      · have hnone : ¬((Piece.line l).created? = some t
            ∧ t ∉ s.progress.flushed) := by
          rw [Piece.created?, creation?_of_declaration? hd]
          rintro ⟨hsome, -⟩
          cases hsome
        rw [if_neg hnone]
        by_cases hredundant : name = tableAlias table
          ∧ s.progress.bound.lookup name = some table
        · rw [Stage.step_redundant hnoticed hd hredundant.1 hredundant.2,
            bodyIn_settle hcreated]
        · rw [Stage.step_declaration hnoticed hd hredundant, bodyIn_cons,
            bodyIn_settle hcreated]
          rfl
      -- nor is any other line
      · have hnone : ¬((Piece.line l).created? = some t
            ∧ t ∉ s.progress.flushed) := by
          rw [Piece.created?, hcreation]
          rintro ⟨hsome, -⟩
          cases hsome
        rw [if_neg hnone, Stage.step_line hnoticed hcreation hdeclaration,
          bodyIn_cons]
        cases mention? s.names.aliases (tokens l) with
        | none => rfl
        | some table => exact bodyIn_settle hcreated table

-- ================================================================== runs

/-- Where the table is not created, or its literals are written, only what
is no literal is written of its body. -/
theorem bodyIn_run (hnoticed : s.progress.Noticed plan)
    (hcreated : t ∈ plan.created) {ps : List Piece} (hps : Resolved s.names ps)
    (h : t ∈ s.progress.flushed ∨ t ∉ createdIn ps) :
    bodyIn (s.run plan ps).1 t
      = (bodyIn ps t).filter fun st => !st.isData := by
  induction ps generalizing s with
  | nil => rfl
  | cons x ps ih =>
      have hnone : ¬(x.created? = some t ∧ t ∉ s.progress.flushed) := by
        rintro ⟨hsome, hnew⟩
        refine h.resolve_left hnew ?_
        rw [createdIn_cons, hsome]
        exact List.mem_cons_self
      have hnext : t ∈ (s.step plan x).2.progress.flushed
          ∨ t ∉ createdIn ps := by
        refine h.imp (fun hold => Stage.flushed_step hnoticed x hold) ?_
        intro hnew hlater
        rw [createdIn_cons] at hnew
        exact hnew (List.mem_append_right _ hlater)
      rw [Stage.run_cons, bodyIn_append, bodyIn_step hnoticed hcreated hps.1,
        if_neg hnone, ih (Stage.noticed_step hnoticed x) hps.2 hnext,
        bodyIn_cons, List.filter_append]
      rfl

/-- From its creation on, all of a table's literals are written and then,
in their order, the other statements of its body. -/
theorem bodyIn_run_creation (hnoticed : s.progress.Noticed plan)
    (hcreated : t ∈ plan.created) (hold : t ∈ s.progress.flushed →
      plan.data t = []) {x : Piece} {ps : List Piece}
    (hps : Resolved s.names (x :: ps)) (hx : x.created? = some t) :
    bodyIn (s.run plan (x :: ps)).1 t
      = plan.data t ++ (bodyIn (x :: ps) t).filter fun st => !st.isData := by
  have hliterals : (if x.created? = some t ∧ t ∉ s.progress.flushed then
    plan.data t else [])
      = plan.data t := by
    split
    case isTrue => rfl
    case isFalse hnot =>
        exact (hold
          (Decidable.byContradiction fun hnew => hnot ⟨hx, hnew⟩)).symm
  have hflushed : t ∈ (s.step plan x).2.progress.flushed :=
    Stage.mem_flushed_of_created hx
  rw [Stage.run_cons, bodyIn_append, bodyIn_step hnoticed hcreated hps.1,
    hliterals, bodyIn_run (Stage.noticed_step hnoticed x) hcreated hps.2
      (Or.inl hflushed), bodyIn_cons,
    List.filter_append, List.append_assoc]

/-- In the normal form the body of a table is its literals and then the
other statements, if nothing is written to it before it is created. -/
theorem bodyIn_normalPieces {before after : List Piece} {x : Piece}
    (h : Resolved .none (before ++ x :: after)) (hx : x.created? = some t)
    (hnew : t ∉ createdIn before) (hbody : bodyIn before t = []) :
    bodyIn (normalPieces (before ++ x :: after)) t
      = dataIn (before ++ x :: after) t
        ++ (bodyIn (before ++ x :: after) t).filter fun st => !st.isData := by
  have hdata := congrFun (data_planOf h) t
  have hgood := good_planOf h
  have hcreated : t ∈ (planOf (before ++ x :: after)).created := by
    refine mem_created_planOf.2 (List.mem_filterMap.2 ⟨x, ?_, hx⟩)
    exact List.mem_append_right _ List.mem_cons_self
  have hpieces := normalPieces_eq (before ++ x :: after)
  obtain ⟨hbefore, hrest⟩ := resolved_append.1 h
  generalize planOf (before ++ x :: after)
    = plan at hdata hgood hcreated hpieces
  have hstart : Stage.start.progress.Noticed plan := Stage.noticed_start plan
  have hnames : (Stage.start.run plan before).2.names
      = (blocksOf .none (before.map Piece.chunk)).2 := Stage.names_run before
  have hfirst : bodyIn (Stage.start.run plan before).1 t = [] := by
    rw [bodyIn_run hstart hcreated hbefore (Or.inr hnew), hbody]
    rfl
  -- before its creation nothing was written for the table, so if its
  -- literals were, there are none
  have hold : t ∈ (Stage.start.run plan before).2.progress.flushed →
      plan.data t = [] := by
    intro hflushed
    have hwritten := (writes_run hgood hstart hbefore).data t
    rw [if_pos ⟨hflushed, List.not_mem_nil⟩] at hwritten
    rw [← hwritten]
    unfold dataIn
    rw [hfirst]
    rfl
  rw [← hnames] at hrest
  have hthen :=
    bodyIn_run_creation (Stage.noticed_run hstart before) hcreated hold
      hrest hx
  rw [hpieces, bodyIn_joinPieces, Stage.run_append, bodyIn_append, hfirst,
    hthen, bodyIn_append, hbody, hdata]
  rfl

end GridScript.Script
