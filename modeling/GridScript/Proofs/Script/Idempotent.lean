/-
The normal form of pieces is its own normal form.

# The argument

What is written for pieces is read by a second run and written again
unchanged (`Follows.run`), if the second run has the plan of the first. It
does not, for it makes a plan of its own from what it reads. But the two
plans say the same: what is written creates the same tables in the same
order (`createdIn_run`), each table has the same literals, which were
written once and together (`dataIn_run`), and whatever has a context may be
bound. Joining blocks before they are read changes nothing
(`normalPieces_joinPieces`).
-/
import GridScript.Proofs.Script.Joining
import GridScript.Proofs.Script.Rereading

namespace GridScript.Script

open Text (IsWord Unbroken isBlank)

variable {plan : Plan} {p : Progress} {s : Stage}

-- ======================================================= what is written

/-- What is written for a piece by itself. -/
def Piece.own : Piece → List Piece
  | line l =>
    match creation? (tokens l) with
    | some c =>
        [.line (c.binding.getD (tableAlias c.table) ++ " = ".toList ++ c.call)]
    | none =>
      match declaration? (tokens l) with
      | some _ => [.line (Text.trimEnd l)]
      | none => [.line l]
  | context c =>
      if c.kept = [] then [] else [.context ⟨c.table, c.region, false, c.kept⟩]

/-- What is written besides: bindings, and the literals of tables. -/
def Plan.Adds (plan : Plan) (y : Piece) : Prop :=
  (∃ table, y = .line (bindingLine table))
    ∨ ∃ table, plan.data table ≠ [] ∧ y = .context (plan.literals table)

theorem own_creation {l : Text} {c : Creation}
    (h : creation? (tokens l) = some c) :
    (Piece.line l).own
      = [.line
        (c.binding.getD (tableAlias c.table) ++ " = ".toList ++ c.call)] := by
  simp only [Piece.own, h]

theorem own_declaration {l name table : Text}
    (h : declaration? (tokens l) = some (name, table)) :
    (Piece.line l).own = [.line (Text.trimEnd l)] := by
  simp only [Piece.own, creation?_of_declaration? h, h]

theorem own_line {l : Text} (hcreation : creation? (tokens l) = none)
    (hdeclaration : declaration? (tokens l) = none) :
    (Piece.line l).own = [.line l] := by
  simp only [Piece.own, hcreation, hdeclaration]

theorem mem_writeContext {c : Context} {y : Piece}
    (h : y ∈ (writeContext plan p c).1) :
    y = .line (bindingLine c.table)
      ∨ (c.statements ≠ [] ∧ y = .context c) := by
  by_cases hne : c.statements = []
  · rw [writeContext_of_nil hne] at h
    cases h
  · rw [writeContext_of_ne hne] at h
    rcases List.mem_append.1 h with h | h
    · left
      unfold writeBinding at h
      split at h
      case isTrue => exact List.mem_singleton.1 h
      case isFalse => cases h
    · exact Or.inr ⟨hne, List.mem_singleton.1 h⟩

theorem adds_of_mem_flush {table : Text} {y : Piece}
    (h : y ∈ (flush plan p table).1) :
    plan.Adds y := by
  by_cases hold : table ∈ p.flushed
  · rw [flush_of_flushed hold] at h
    cases h
  · rw [flush_of_not_flushed hold] at h
    rcases mem_writeContext h with hbinding | ⟨hdata, hliterals⟩
    · exact Or.inl ⟨table, hbinding⟩
    · exact Or.inr ⟨table, hdata, hliterals⟩

theorem adds_of_mem_settle {table : Text} {y : Piece}
    (h : y ∈ (settle plan p table).1) :
    plan.Adds y := by
  unfold settle at h
  split at h
  case isTrue => cases h
  case isFalse => exact adds_of_mem_flush h

/-- What a step writes. -/
theorem mem_step (hnoticed : s.progress.Noticed plan) {x y : Piece}
    (hx : x.ResolvesIn s.names) (h : y ∈ (s.step plan x).1) :
    y ∈ x.own ∨ plan.Adds y := by
  cases x with
  | context c =>
      rw [Stage.step_context hnoticed hx] at h
      rcases List.mem_append.1 h with h | h
      · exact Or.inr (adds_of_mem_settle h)
      · rcases mem_writeContext h with hbinding | ⟨hkept, hown⟩
        · exact Or.inr (Or.inl ⟨c.table, hbinding⟩)
        · left
          rw [Piece.own, if_neg hkept, hown]
          exact List.mem_singleton_self _
  | line l =>
      rcases Piece.cases_line l
        with ⟨c, hc⟩ | ⟨name, table, hd⟩ | ⟨hcreation, hdeclaration⟩
      -- a creation, and the literals of its table
      · rw [Stage.step_creation hc] at h
        rw [own_creation hc]
        rcases List.mem_cons.1 h with h | h
        · exact Or.inl (List.mem_singleton.2 h)
        · exact Or.inr (adds_of_mem_flush h)
      -- a declaration, unless the name is bound already, and the literals
      · rw [own_declaration hd]
        by_cases hredundant : name = tableAlias table
          ∧ s.progress.bound.lookup name = some table
        · rw [Stage.step_redundant hnoticed hd hredundant.1 hredundant.2] at h
          exact Or.inr (adds_of_mem_settle h)
        · rw [Stage.step_declaration hnoticed hd hredundant] at h
          rcases List.mem_cons.1 h with h | h
          · exact Or.inl (List.mem_singleton.2 h)
          · exact Or.inr (adds_of_mem_settle h)
      -- any other line, and the literals of the table that it mentions
      · rw [Stage.step_line hnoticed hcreation hdeclaration] at h
        rw [own_line hcreation hdeclaration]
        rcases List.mem_cons.1 h with h | h
        · exact Or.inl (List.mem_singleton.2 h)
        · right
          cases hmention : mention? s.names.aliases (tokens l) with
          | none =>
              rw [hmention] at h
              cases h
          | some table =>
              rw [hmention] at h
              exact adds_of_mem_settle h

theorem mem_run (hnoticed : s.progress.Noticed plan) {ps : List Piece}
    (hps : Resolved s.names ps) {y : Piece} (h : y ∈ (s.run plan ps).1) :
    (∃ x ∈ ps, y ∈ x.own) ∨ plan.Adds y := by
  induction ps generalizing s with
  | nil => cases h
  | cons x ps ih =>
      rw [Stage.run_cons] at h
      rcases List.mem_append.1 h with h | h
      · exact (mem_step hnoticed hps.1 h).imp_left fun hown =>
          ⟨x, List.mem_cons_self, hown⟩
      · refine (ih (Stage.noticed_step hnoticed x) hps.2 h).imp_left ?_
        rintro ⟨x', hx', hown⟩
        exact ⟨x', List.mem_cons_of_mem x hx', hown⟩

-- ================================================================ fitness

/-- A line that binds a name is a line. -/
theorem plainLine_of_binding {l name : Text} {rest : List Token}
    (hunbroken : Unbroken l) (h : eatBinding? (tokens l) = some (name, rest)) :
    PlainLine l := by
  refine ⟨hunbroken, Or.inr ?_, header?_of_eatBinding? h⟩
  obtain ⟨ts₁, ts₂, htokens, -⟩ := exists_word_of_eatBinding? h
  obtain ⟨c, t, rfl, hc⟩ := exists_head_of_tokens htokens
  exact indentWidth_cons_of_not_blank hc

theorem unbroken_equals : Unbroken " = ".toList := by decide

theorem unbroken_lookupCall (table : Text) : Unbroken (lookupCall table) := by
  unfold lookupCall
  simp only [Text.unbroken_append, Text.unbroken_cons]
  exact ⟨⟨⟨by decide, by decide, by decide⟩, by decide,
    unbroken_quote table⟩, by decide⟩

theorem unbroken_bindingLine (table : Text) :
    Unbroken (bindingLine table) := by
  unfold bindingLine
  simp only [Text.unbroken_append]
  exact ⟨⟨(isWord_tableAlias table).unbroken, unbroken_equals⟩,
    unbroken_lookupCall table⟩

theorem plainLine_bindingLine (table : Text) :
    PlainLine (bindingLine table) := by
  have heat := eatBinding?_tokens (isWord_tableAlias table) (lookupCall table)
  rw [← List.append_assoc] at heat
  exact plainLine_of_binding (unbroken_bindingLine table) heat

/-- What is written for a fit piece is fit. -/
theorem fit_of_mem_own {x y : Piece} (hx : x.Fit) (h : y ∈ x.own) : y.Fit := by
  cases x with
  | context c =>
      rw [Piece.own] at h
      split at h
      case isTrue => cases h
      case isFalse hkept =>
          rw [List.mem_singleton.1 h]
          refine ⟨hkept, ?_⟩
          intro st hst
          refine hx.2 st ?_
          unfold Context.kept at hst
          split at hst
          case isTrue => exact (List.mem_filter.1 hst).1
          case isFalse => exact hst
  | line l =>
      have hline : PlainLine l := hx
      rcases Piece.cases_line l
        with ⟨c, hc⟩ | ⟨name, table, hd⟩ | ⟨hcreation, hdeclaration⟩
      · rw [own_creation hc, List.mem_singleton] at h
        have heat := eatBinding?_tokens (isWord_binding hc) c.call
        rw [← List.append_assoc] at heat
        rw [h]
        refine plainLine_of_binding ?_ heat
        simp only [Text.unbroken_append]
        exact ⟨⟨(isWord_binding hc).unbroken, unbroken_equals⟩,
          hline.unbroken.of_subset (call_subset hc)⟩
      · rw [own_declaration hd, List.mem_singleton] at h
        rw [h]
        have hread := declaration?_trimEnd hd
        unfold declaration? at hread
        obtain ⟨⟨name', rest⟩, hbinding, -⟩ := Option.bind_eq_some_iff.1 hread
        exact plainLine_of_binding
          (hline.unbroken.of_subset (Text.trimEnd_subset l)) hbinding
      · rw [own_line hcreation hdeclaration, List.mem_singleton] at h
        rw [h]
        exact hline

/-- The literals of fit pieces are settled. -/
theorem settled_of_mem_dataIn {ps : List Piece} (h : ∀ x ∈ ps, x.Fit)
    {table : Text} :
    ∀ st ∈ dataIn ps table, st.Settled := by
  intro st hst
  obtain ⟨c, hc, -, hst⟩ :=
    exists_context_of_mem_bodyIn (List.mem_filter.1 hst).1
  exact (h _ hc).2 st hst

/-- What is written for fit pieces is fit. -/
theorem fit_run {ps : List Piece} (hfit : ∀ x ∈ ps, x.Fit)
    (hps : Resolved .none ps) :
    ∀ y ∈ (Stage.start.run (planOf ps) ps).1, y.Fit := by
  intro y hy
  rcases mem_run (Stage.noticed_start _) hps hy with
    ⟨x, hx, hown⟩ | ⟨table, rfl⟩ | ⟨table, hne, rfl⟩
  · exact fit_of_mem_own (hfit x hx) hown
  · exact plainLine_bindingLine table
  · refine ⟨hne, ?_⟩
    intro st hst
    unfold Plan.literals at hst
    rw [data_planOf hps] at hst
    exact settled_of_mem_dataIn hfit st hst

-- ======================================================= created tables

theorem createdIn_append (ps qs : List Piece) :
    createdIn (ps ++ qs) = createdIn ps ++ createdIn qs :=
  List.filterMap_append

theorem createdIn_cons (p : Piece) (ps : List Piece) :
    createdIn (p :: ps) = p.created?.toList ++ createdIn ps := by
  unfold createdIn
  rw [List.filterMap_cons]
  cases p.created? <;> rfl

/-- Nothing that is added creates a table. -/
theorem createdIn_of_adds {ps : List Piece} (h : ∀ y ∈ ps, plan.Adds y) :
    createdIn ps = [] := by
  unfold createdIn
  rw [List.filterMap_eq_nil_iff]
  intro y hy
  rcases h y hy with ⟨table, rfl⟩ | ⟨table, -, rfl⟩
  · rw [Piece.created?, creation?_bindingLine]
    rfl
  · rfl

/-- A step writes the creation that it reads. -/
theorem createdIn_step (hnoticed : s.progress.Noticed plan) {x : Piece}
    (hx : x.ResolvesIn s.names) :
    createdIn (s.step plan x).1 = x.created?.toList := by
  have hflush : ∀ p table, createdIn (flush plan p table).1 = [] :=
    fun p table => createdIn_of_adds fun y hy => adds_of_mem_flush hy
  have hsettle : ∀ p table, createdIn (settle plan p table).1 = [] :=
    fun p table => createdIn_of_adds fun y hy => adds_of_mem_settle hy
  cases x with
  | context c =>
      rw [Stage.step_context hnoticed hx, createdIn_append, hsettle,
        List.nil_append]
      unfold createdIn
      rw [List.filterMap_eq_nil_iff.2]
      · rfl
      · intro y hy
        rcases mem_writeContext hy with rfl | ⟨-, rfl⟩
        · rw [Piece.created?, creation?_bindingLine]
          rfl
        · rfl
  | line l =>
      rcases Piece.cases_line l
        with ⟨c, hc⟩ | ⟨name, table, hd⟩ | ⟨hcreation, hdeclaration⟩
      -- a creation is read as one behind its name
      · have hread := creation?_rebound (reads_tokens l) hc (isWord_binding hc)
        rw [Stage.step_creation hc, createdIn_cons, hflush, Piece.created?,
          Piece.created?, hread, hc]
        rfl
      · have hnone : (Piece.line l).created? = none := by
          rw [Piece.created?, creation?_of_declaration? hd]
          rfl
        rw [hnone]
        by_cases hredundant : name = tableAlias table
          ∧ s.progress.bound.lookup name = some table
        · rw [Stage.step_redundant hnoticed hd hredundant.1 hredundant.2,
            hsettle]
          rfl
        · rw [Stage.step_declaration hnoticed hd hredundant, createdIn_cons,
            hsettle, Piece.created?,
            creation?_of_declaration? (declaration?_trimEnd hd)]
          rfl
      · have hmention : ∀ p table,
            createdIn (settleMention plan p table).1 = [] := by
          intro p table
          cases table with
          | none => rfl
          | some table => exact hsettle p table
        rw [Stage.step_line hnoticed hcreation hdeclaration, createdIn_cons,
          hmention, List.append_nil]

/-- What is written creates what was read, in its order. -/
theorem createdIn_run (hnoticed : s.progress.Noticed plan) {ps : List Piece}
    (hps : Resolved s.names ps) :
    createdIn (s.run plan ps).1 = createdIn ps := by
  induction ps generalizing s with
  | nil => rfl
  | cons x ps ih =>
      rw [Stage.run_cons, createdIn_append, createdIn_step hnoticed hps.1,
        ih (Stage.noticed_step hnoticed x) hps.2, createdIn_cons]

-- =============================================================== bodies

/-- A binding holds no statements. -/
theorem bodyIn_writeBinding (table t : Text) :
    bodyIn (writeBinding plan p table).1 t = [] := by
  unfold writeBinding
  split <;> rfl

theorem bodyIn_writeContext (c : Context) (t : Text) :
    bodyIn (writeContext plan p c).1 t = (Piece.context c).body t := by
  by_cases hne : c.statements = []
  · rw [writeContext_of_nil hne, Piece.body, hne, ite_self]
    rfl
  · rw [writeContext_of_ne hne, bodyIn_append, bodyIn_writeBinding,
      List.nil_append, bodyIn_cons]
    exact List.append_nil _

/-- Literals are written together, and once. -/
theorem bodyIn_flush (table t : Text) :
    bodyIn (flush plan p table).1 t
      = if t = table ∧ t ∉ p.flushed then plan.data t else [] := by
  by_cases hold : table ∈ p.flushed
  · rw [flush_of_flushed hold, if_neg]
    · rfl
    · rintro ⟨rfl, hnew⟩
      exact hnew hold
  · rw [flush_of_not_flushed hold, bodyIn_writeContext, Piece.body]
    by_cases heq : t = table
    · rw [if_pos ⟨heq.symm, rfl⟩, if_pos ⟨heq, heq ▸ hold⟩, heq]
    · rw [if_neg fun h => heq h.1.symm, if_neg fun h => heq h.1]

theorem mem_flushed_flush_iff {table t : Text} :
    t ∈ (flush plan p table).2.flushed ↔ t = table ∨ t ∈ p.flushed := by
  by_cases hold : table ∈ p.flushed
  · rw [flush_of_flushed hold]
    exact ⟨Or.inr, fun h => h.elim (fun heq => heq ▸ hold) id⟩
  · rw [flush_of_not_flushed hold, flushed_writeContext, List.mem_cons]

/-- What stays of a body is what is no literal. -/
theorem body_kept (c : Context) (t : Text) :
    (Piece.context ⟨c.table, c.region, false, c.kept⟩).body t
      = ((Piece.context c).body t).filter fun st => !st.isData := by
  rw [Piece.body, Piece.body]
  split
  case isTrue hin => rw [Context.kept, if_pos hin.2]
  case isFalse => rfl

-- ============================================================= literals

/-- The literals that are written are those of the tables that have been
flushed in the meantime. -/
structure Writes (plan : Plan) (p : Progress) (out : List Piece)
    (p' : Progress) : Prop where
  flushed : p.flushed ⊆ p'.flushed
  data : ∀ t, dataIn out t = if t ∈ p'.flushed ∧ t ∉ p.flushed then plan.data t
    else []

namespace Writes

variable {p' p'' : Progress} {out out' : List Piece}

/-- Nothing is flushed. -/
theorem quiet (hsame : p'.flushed = p.flushed)
    (hout : ∀ t, dataIn out t = []) :
    Writes plan p out p' := by
  refine ⟨?_, ?_⟩
  · rw [hsame]
    exact List.Subset.refl _
  · intro t
    rw [hout, hsame, if_neg]
    rintro ⟨hin, hout⟩
    exact hout hin

theorem trans (h : Writes plan p out p') (h' : Writes plan p' out' p'') :
    Writes plan p (out ++ out') p'' := by
  refine ⟨List.Subset.trans h.flushed h'.flushed, ?_⟩
  intro t
  rw [dataIn_append, h.data, h'.data]
  by_cases hfirst : t ∈ p.flushed
  · have hsecond := h.flushed hfirst
    simp [hfirst, hsecond]
  · by_cases hsecond : t ∈ p'.flushed
    · have hthird := h'.flushed hsecond
      simp [hfirst, hsecond, hthird]
    · simp [hfirst, hsecond]

end Writes

/-- What stays in place holds no literals. -/
theorem writes_kept (c : Context) :
    Writes plan p (writeContext plan p ⟨c.table, c.region, false, c.kept⟩).1
      (writeContext plan p ⟨c.table, c.region, false, c.kept⟩).2 := by
  refine .quiet (flushed_writeContext plan p _) ?_
  intro t
  unfold dataIn
  rw [bodyIn_writeContext, body_kept, List.filter_filter,
    List.filter_eq_nil_iff]
  intro st _
  cases st.isData <;> decide

theorem writes_flush (hgood : plan.Good) (table : Text) :
    Writes plan p (flush plan p table).1 (flush plan p table).2 := by
  refine ⟨fun t ht => mem_flushed_flush_iff.2 (Or.inr ht), ?_⟩
  intro t
  have hliterals : (plan.data t).filter Statement.isData = plan.data t :=
    List.filter_eq_self.2 (hgood.literal t)
  have hfresh : (t ∈ (flush plan p table).2.flushed ∧ t ∉ p.flushed)
      ↔ (t = table ∧ t ∉ p.flushed) := by
    rw [mem_flushed_flush_iff]
    exact ⟨fun ⟨hin, hnew⟩ => ⟨hin.resolve_right hnew, hnew⟩,
      fun ⟨heq, hnew⟩ => ⟨Or.inl heq, hnew⟩⟩
  unfold dataIn
  rw [bodyIn_flush]
  simp only [hfresh]
  split
  case isTrue => exact hliterals
  case isFalse => rfl

theorem writes_settle (hgood : plan.Good) (table : Text) :
    Writes plan p (settle plan p table).1 (settle plan p table).2 := by
  unfold settle
  split
  case isTrue => exact .quiet rfl fun t => rfl
  case isFalse => exact writes_flush hgood table

/-- A line holds no literals, and what was seen has none to write. -/
theorem Writes.line {l : Text} {q p' : Progress} {out : List Piece}
    (table : Option Text) (hsame : q.flushed = p.flushed)
    (h : Writes plan q out p') :
    Writes plan p (.line l :: out) (p'.see table) := by
  obtain ⟨hflushed, hdata⟩ := h
  refine ⟨hsame ▸ hflushed, ?_⟩
  intro t
  rw [dataIn_cons, hdata, hsame]
  rfl

/-- A step writes the literals of the tables that it settles. -/
theorem writes_step (hgood : plan.Good) (hnoticed : s.progress.Noticed plan)
    {x : Piece} (hx : x.ResolvesIn s.names) :
    Writes plan s.progress (s.step plan x).1 (s.step plan x).2.progress := by
  cases x with
  | context c =>
      rw [Stage.step_context hnoticed hx]
      have hboth :=
        (writes_settle (p := s.progress) hgood c.table).trans (writes_kept c)
      exact ⟨hboth.flushed, hboth.data⟩
  | line l =>
      rcases Piece.cases_line l
        with ⟨c, hc⟩ | ⟨name, table, hd⟩ | ⟨hcreation, hdeclaration⟩
      · rw [Stage.step_creation hc]
        -- to bind a name writes no literals
        have hsame : (s.progress.bind
            (c.binding.getD (tableAlias c.table)) c.table).flushed
            = s.progress.flushed := rfl
        have hwrites :=
          Writes.line (l := c.binding.getD (tableAlias c.table) ++ " = ".toList
            ++ c.call) none hsame (writes_flush hgood c.table)
        exact ⟨hwrites.flushed, hwrites.data⟩
      · by_cases hredundant : name = tableAlias table
          ∧ s.progress.bound.lookup name = some table
        · rw [Stage.step_redundant hnoticed hd hredundant.1 hredundant.2]
          have hsettle := writes_settle (p := s.progress) hgood table
          exact ⟨hsettle.flushed, hsettle.data⟩
        · rw [Stage.step_declaration hnoticed hd hredundant]
          have hsame : (s.progress.bind name table).flushed
              = s.progress.flushed := rfl
          exact .line _ hsame (writes_settle hgood table)
      · rw [Stage.step_line hnoticed hcreation hdeclaration]
        have hsame : (s.progress.afterLine l).flushed
            = s.progress.flushed := by
          unfold Progress.afterLine
          cases marginTarget? l <;> rfl
        refine .line _ hsame ?_
        cases mention? s.names.aliases (tokens l) with
        | none => exact .quiet rfl fun t => rfl
        | some table => exact writes_settle hgood table

theorem writes_run (hgood : plan.Good) (hnoticed : s.progress.Noticed plan)
    {ps : List Piece} (hps : Resolved s.names ps) :
    Writes plan s.progress (s.run plan ps).1 (s.run plan ps).2.progress := by
  induction ps generalizing s with
  | nil => exact .quiet rfl fun t => rfl
  | cons x ps ih =>
      rw [Stage.run_cons]
      exact (writes_step hgood hnoticed hps.1).trans
        (ih (Stage.noticed_step hnoticed x) hps.2)

/-- The plan for pieces gathers literals of their contexts. -/
theorem good_planOf {ps : List Piece} (h : Resolved .none ps) :
    (planOf ps).Good := by
  refine ⟨?_, ?_⟩
  · intro table st hst
    rw [data_planOf h] at hst
    exact isData_of_mem_dataIn st hst
  · intro table hne
    rw [data_planOf h] at hne
    obtain ⟨c, hc, rfl⟩ := exists_context_of_dataIn hne
    exact mem_bindable_of_context h hc

/-- The plan for pieces covers them. -/
theorem covers_planOf {ps : List Piece} (h : Resolved .none ps) :
    ∀ x ∈ ps, (planOf ps).Covers x := by
  intro x hx
  refine ⟨?_, ?_⟩
  · intro t ht
    exact mem_created_planOf.2 (List.mem_filterMap.2 ⟨x, hx, ht⟩)
  · rintro c rfl
    exact mem_bindable_of_context h hx

/-- What is written has the literals that were read. -/
theorem dataIn_run {ps : List Piece} (h : Resolved .none ps) :
    dataIn (Stage.start.run (planOf ps) ps).1 = dataIn ps := by
  have hwrites := writes_run (good_planOf h) (Stage.noticed_start _) h
  funext t
  rw [hwrites.data, data_planOf h]
  by_cases hdata : dataIn ps t = []
  · rw [hdata, ite_self]
  · rw [if_pos]
    refine ⟨mem_flushed_run ?_, List.not_mem_nil⟩
    rw [data_planOf h]
    exact hdata

-- ========================================================= the second plan

/-- The plan with other tables that may be bound. -/
def Plan.binding (plan : Plan) (tables : List Text) : Plan :=
  { plan with bindable := tables }

section

variable {tables : List Text}

/-- What may be bound matters to what is written at contexts only. -/
theorem writeContext_binding {c : Context}
    (h : c.statements ≠ [] → (c.table ∈ plan.bindable ∧ c.table ∈ tables)) :
    writeContext (plan.binding tables) p c = writeContext plan p c := by
  by_cases hne : c.statements = []
  · rw [writeContext_of_nil hne, writeContext_of_nil hne]
  · obtain ⟨hin, hin'⟩ := h hne
    rw [writeContext_of_ne hne, writeContext_of_ne hne]
    unfold writeBinding Plan.binding
    simp only [List.contains_iff_mem.2 hin, List.contains_iff_mem.2 hin']

theorem flush_binding
    (h : ∀ t, plan.data t ≠ [] → (t ∈ plan.bindable ∧ t ∈ tables))
    (table : Text) :
    flush (plan.binding tables) p table = flush plan p table := by
  by_cases hold : table ∈ p.flushed
  · rw [flush_of_flushed hold, flush_of_flushed hold]
  · rw [flush_of_not_flushed hold, flush_of_not_flushed hold]
    exact writeContext_binding (h table)

theorem flushFirst_binding
    (h : ∀ t, plan.data t ≠ [] → (t ∈ plan.bindable ∧ t ∈ tables))
    (table : Option Text) :
    flushFirst (plan.binding tables) p table = flushFirst plan p table := by
  cases table with
  | none => rfl
  | some table =>
      unfold flushFirst
      simp only [flush_binding h]
      rfl

theorem step_binding
    (h : ∀ t, plan.data t ≠ [] → (t ∈ plan.bindable ∧ t ∈ tables)) {x : Piece}
    (hx : x.ResolvesIn s.names) (hcontext : ∀ c, x = .context c →
      (c.table ∈ plan.bindable ∧ c.table ∈ tables)) :
    s.step (plan.binding tables) x = s.step plan x := by
  have hwrite : writeBlock (plan.binding tables) s.progress
        (blockOf s.names x.chunk).1.withoutData
      = writeBlock plan s.progress
        (blockOf s.names x.chunk).1.withoutData := by
    cases x with
    | context c =>
        rw [blockOf_context hx, withoutData_context]
        have hwrite : ∀ p, writeContext (plan.binding tables) p
            ⟨c.table, c.region, false, c.kept⟩
            = writeContext plan p ⟨c.table, c.region, false, c.kept⟩ :=
          fun p => writeContext_binding fun _ => hcontext c rfl
        simp only [writeBlock, flushFirst_binding h, hwrite]
    | line l =>
        rcases Piece.cases_line l
          with ⟨c, hc⟩ | ⟨name, table, hd⟩ | ⟨hcreation, hdeclaration⟩
        · rw [blockOf_creation hc]
          simp only [Block.withoutData, writeBlock, flush_binding h]
        · rw [blockOf_declaration hd]
          simp only [Block.withoutData, writeBlock, flushFirst_binding h]
        · rw [blockOf_line hcreation hdeclaration]
          simp only [Block.withoutData, writeBlock, flushFirst_binding h]
  unfold Stage.step
  simp only [hwrite]

theorem run_binding
    (h : ∀ t, plan.data t ≠ [] → (t ∈ plan.bindable ∧ t ∈ tables))
    {ps : List Piece} (hps : Resolved s.names ps) (hcontext : ∀ c,
      Piece.context c ∈ ps → (c.table ∈ plan.bindable ∧ c.table ∈ tables)) :
    s.run (plan.binding tables) ps = s.run plan ps := by
  induction ps generalizing s with
  | nil => rfl
  | cons x ps ih =>
      have hstep :=
        step_binding h hps.1 fun c hc => hcontext c (hc ▸ List.mem_cons_self)
      have hrest := ih (s := (s.step plan x).2) hps.2 fun c hc =>
        hcontext c (List.mem_cons_of_mem x hc)
      rw [Stage.run_cons, Stage.run_cons, hstep, hrest]

end

/-- The tables that have contexts in what is written have contexts in what
was read. -/
theorem exists_context_of_run {ps : List Piece} (h : Resolved .none ps)
    {c : Context} (hc : .context c ∈ (Stage.start.run (planOf ps) ps).1) :
    ∃ d, Piece.context d ∈ ps ∧ d.table = c.table := by
  rcases mem_run (Stage.noticed_start _) h hc
      with ⟨x, hx, hown⟩ | ⟨table, hbinding⟩
      | ⟨table, hne, hliterals⟩
  -- a context that was there, less its literals
  · cases x with
    | context d =>
        rw [Piece.own] at hown
        split at hown
        case isTrue => cases hown
        case isFalse =>
            rw [List.mem_singleton] at hown
            injection hown with hsame
            exact ⟨d, hx, by rw [hsame]⟩
    | line l =>
        rw [Piece.own] at hown
        split at hown
        next => cases List.mem_singleton.1 hown
        next => split at hown <;> cases List.mem_singleton.1 hown
  · cases hbinding
  -- a context of literals, which come from contexts of their table
  · rw [data_planOf h] at hne
    injection hliterals with hsame
    obtain ⟨d, hd, htable⟩ := exists_context_of_dataIn hne
    exact ⟨d, hd, by rw [hsame, htable]; rfl⟩

/-- The plan for what is written is the plan that it was written by, but
for the tables that may be bound. -/
theorem planOf_run {ps : List Piece} (h : Resolved .none ps)
    (hwritten : Resolved .none (Stage.start.run (planOf ps) ps).1) :
    planOf (Stage.start.run (planOf ps) ps).1
      = (planOf ps).binding
        (planOf (Stage.start.run (planOf ps) ps).1).bindable := by
  have hcreated := created_planOf (Stage.start.run (planOf ps) ps).1
  rw [createdIn_run (Stage.noticed_start _) h, ← created_planOf] at hcreated
  have hdata := data_planOf hwritten
  rw [dataIn_run h, ← data_planOf h] at hdata
  unfold Plan.binding
  rw [← hcreated, ← hdata]

-- ============================================================= conclusion

/-- The normal form of resolved pieces is its own normal form. -/
theorem normalPieces_normalPieces {ps : List Piece} (h : Resolved .none ps) :
    normalPieces (normalPieces ps) = normalPieces ps := by
  obtain ⟨s', hreread, -⟩ := (follows_start (planOf ps)).run (good_planOf h) h
    (covers_planOf h)
  have hwritten : Resolved .none (Stage.start.run (planOf ps) ps).1 :=
    hreread.resolved
  have hdata : ∀ t, (planOf ps).data t ≠ [] → (t ∈ (planOf ps).bindable
      ∧ t ∈ (planOf (Stage.start.run (planOf ps) ps).1).bindable) := by
    intro t ht
    refine ⟨(good_planOf h).bindable t ht,
      (good_planOf hwritten).bindable t ?_⟩
    rw [data_planOf hwritten, dataIn_run h, ← data_planOf h]
    exact ht
  have hcontext : ∀ c, Piece.context c ∈ (Stage.start.run (planOf ps) ps).1 →
      (c.table ∈ (planOf ps).bindable
        ∧ c.table ∈ (planOf (Stage.start.run (planOf ps) ps).1).bindable) := by
    intro c hc
    obtain ⟨d, hd, htable⟩ := exists_context_of_run h hc
    exact ⟨htable ▸ mem_bindable_of_context h hd,
      mem_bindable_of_context hwritten hc⟩
  rw [normalPieces_eq ps, normalPieces_joinPieces hwritten, normalPieces_eq,
    planOf_run h hwritten, run_binding hdata hwritten hcontext, hreread.run]

/-- What is written is resolved again. -/
theorem resolved_normalPieces {ps : List Piece} (h : Resolved .none ps) :
    Resolved .none (normalPieces ps) := by
  obtain ⟨s', hreread, -⟩ := (follows_start (planOf ps)).run (good_planOf h) h
    (covers_planOf h)
  rw [normalPieces_eq]
  exact (Stage.run_joinPieces
    (Stage.noticed_start (planOf ps)) hreread.resolved).2.2

/-- Joining keeps pieces fit. -/
theorem fit_joinPieces {ps : List Piece} (h : ∀ x ∈ ps, x.Fit) :
    ∀ x ∈ joinPieces ps, x.Fit := by
  refine joinPieces_induction
    (motive := fun ps qs => (∀ x ∈ ps, x.Fit) → ∀ x ∈ qs, x.Fit)
      (fun h => h) ?_ ?_ ps h
  · intro p ps qs ih h
    obtain ⟨hp, hps⟩ := List.forall_mem_cons.1 h
    exact List.forall_mem_cons.2 ⟨hp, ih hps⟩
  · intro c d ps qs _ ih h
    obtain ⟨hc, hrest⟩ := List.forall_mem_cons.1 (ih h)
    obtain ⟨hd, hqs⟩ := List.forall_mem_cons.1 hrest
    refine List.forall_mem_cons.2 ⟨⟨?_, ?_⟩, hqs⟩
    · exact fun hnil => hc.1 (List.append_eq_nil_iff.1 hnil).1
    · intro st hst
      exact (List.mem_append.1 hst).elim (hc.2 st) (hd.2 st)

/-- The normal form of fit pieces is fit. -/
theorem fit_normalPieces {ps : List Piece} (hfit : ∀ x ∈ ps, x.Fit)
    (h : Resolved .none ps) :
    ∀ x ∈ normalPieces ps, x.Fit := by
  rw [normalPieces_eq]
  exact fit_joinPieces (fit_run hfit h)

end GridScript.Script
