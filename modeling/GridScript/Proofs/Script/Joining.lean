/-
Joining blocks that stand next to each other. Joining is the last thing
that is done to the pieces of a normal form, and when they are read again
it makes no difference whether they were joined: two blocks of one scope in
a row are read, settled and written like one (`run_joinPieces`). So pieces
and their joined form have the same plan and the same normal form
(`normalPieces_joinPieces`).
-/
import GridScript.Proofs.Script.Planning

namespace GridScript.Script

-- ============================================================== joining

/-- Two contexts of one scope as one. -/
def Context.join (c d : Context) : Context :=
  { c with statements := c.statements ++ d.statements }

theorem sameScope_iff {c d : Context} :
    c.sameScope d = true ↔ c.table = d.table ∧ c.region = d.region
      ∧ c.gathered = d.gathered := by
  unfold Context.sameScope
  simp only [Bool.and_eq_true, beq_iff_eq, and_assoc]

/-- A context in front of pieces that are joined. -/
def consContext (c : Context) : List Piece → List Piece
  | .context d :: rest =>
    if c.sameScope d then .context (c.join d) :: rest
    else .context c :: .context d :: rest
  | rest => .context c :: rest

theorem joinPieces_line (l : Text) (ps : List Piece) :
    joinPieces (.line l :: ps) = .line l :: joinPieces ps := rfl

theorem joinPieces_context (c : Context) (ps : List Piece) :
    joinPieces (.context c :: ps) = consContext c (joinPieces ps) := by
  rw [joinPieces]
  cases joinPieces ps with
  | nil => rfl
  | cons p rest => cases p <;> rfl

theorem consContext_join {c d : Context} (h : c.sameScope d = true)
    (ps : List Piece) :
    consContext c (consContext d ps) = consContext (c.join d) ps := by
  have hscope : ∀ e : Context, (c.join d).sameScope e = d.sameScope e := by
    intro e
    obtain ⟨htable, hregion, hgathered⟩ := sameScope_iff.1 h
    unfold Context.sameScope Context.join
    rw [htable, hregion, hgathered]
  have hfront : ∀ rest,
      consContext c (.context d :: rest) = .context (c.join d) :: rest := by
    intro rest
    rw [consContext, if_pos h]
  match ps with
  | [] => exact hfront []
  | .line l :: rest => exact hfront (.line l :: rest)
  | .context e :: rest =>
      rw [consContext, consContext, hscope]
      by_cases hde : d.sameScope e = true
      · have hce : c.sameScope (d.join e) = true := h
        rw [if_pos hde, if_pos hde, consContext, if_pos hce]
        simp only [Context.join, List.append_assoc]
      · rw [if_neg hde, if_neg hde, hfront]

/-- What stands behind a part that is joined may be joined first. -/
theorem joinPieces_congr {ps qs : List Piece}
    (h : joinPieces ps = joinPieces qs) (before : List Piece) :
    joinPieces (before ++ ps) = joinPieces (before ++ qs) := by
  induction before with
  | nil => exact h
  | cons p before ih =>
      rw [List.cons_append, List.cons_append]
      cases p with
      | line l => rw [joinPieces_line, joinPieces_line, ih]
      | context c => rw [joinPieces_context, joinPieces_context, ih]

/-- Two contexts of one scope in a row are joined as one. -/
theorem joinPieces_join {c d : Context} (h : c.sameScope d = true)
    (ps : List Piece) :
    joinPieces (.context c :: .context d :: ps)
      = joinPieces (.context (c.join d) :: ps) := by
  rw [joinPieces_context, joinPieces_context, joinPieces_context,
    consContext_join h]

/-- What relates pieces to others relates them to their joined form, if it
outlasts a piece in front of both and the joining of two contexts. -/
theorem joinPieces_induction {motive : List Piece → List Piece → Prop}
    (nil : motive [] [])
    (cons : ∀ p ps qs, motive ps qs → motive (p :: ps) (p :: qs))
    (join : ∀ c d ps qs, c.sameScope d = true →
      motive ps (.context c :: .context d :: qs) →
      motive ps (.context (c.join d) :: qs)) (ps : List Piece) :
    motive ps (joinPieces ps) := by
  induction ps with
  | nil => exact nil
  | cons p ps ih =>
      have hcons := cons p ps _ ih
      cases p with
      | line l => exact hcons
      | context c =>
          rw [joinPieces_context]
          match joinPieces ps, hcons with
          | [], hcons => exact hcons
          | .line l :: rest, hcons => exact hcons
          | .context d :: rest, hcons =>
              rw [consContext]
              split
              case isTrue hscope => exact join c d _ rest hscope hcons
              case isFalse => exact hcons

/-- A part may be joined before what stands behind it is. -/
theorem joinPieces_append (ps qs : List Piece) :
    joinPieces (joinPieces ps ++ qs) = joinPieces (ps ++ qs) := by
  refine joinPieces_induction
    (motive := fun ps ps' => joinPieces (ps' ++ qs) = joinPieces (ps ++ qs))
      rfl ?_ ?_ ps
  · intro p ps ps' h
    exact joinPieces_congr h [p]
  · intro c d ps ps' hscope h
    exact (joinPieces_join hscope (ps' ++ qs)).symm.trans h

@[simp] theorem joinPieces_joinPieces (ps : List Piece) :
    joinPieces (joinPieces ps) = joinPieces ps := by
  have happend := joinPieces_append ps []
  rw [List.append_nil, List.append_nil] at happend
  exact happend

/-- A joined context has the scope of one that was there before. -/
theorem exists_scope_of_mem_joinPieces {ps : List Piece} {d : Context}
    (h : .context d ∈ joinPieces ps) :
    ∃ e, .context e ∈ ps ∧ e.sameScope d = true := by
  refine joinPieces_induction (motive := fun ps qs => ∀ d, .context d ∈ qs →
    ∃ e, .context e ∈ ps ∧ e.sameScope d = true) ?_ ?_ ?_ ps d h
  · intro d hd
    cases hd
  · intro p ps qs ih d hd
    rcases List.mem_cons.1 hd with rfl | hd
    · exact ⟨d, List.mem_cons_self, sameScope_iff.2 ⟨rfl, rfl, rfl⟩⟩
    · obtain ⟨e, he, hscope⟩ := ih d hd
      exact ⟨e, List.mem_cons_of_mem p he, hscope⟩
  · intro c d' ps qs _ ih d hd
    rcases List.mem_cons.1 hd with hd | hd
    · injection hd with hd
      exact hd ▸ ih c List.mem_cons_self
    · exact ih d (List.mem_cons_of_mem _ (List.mem_cons_of_mem _ hd))

/-- A context is joined with nothing if no other has its scope. -/
theorem joinPieces_apart {c : Context} {before after : List Piece}
    (h : ∀ d, .context d ∈ before ++ after → d.sameScope c = false) :
    joinPieces (before ++ .context c :: after)
      = joinPieces before ++ .context c :: joinPieces after := by
  induction before with
  | nil =>
      have hafter : ∀ d, .context d ∈ joinPieces after →
          c.sameScope d = false := by
        intro d hd
        obtain ⟨e, he, hed⟩ := exists_scope_of_mem_joinPieces hd
        rw [Bool.eq_false_iff]
        intro hcd
        obtain ⟨htable, hregion, hgathered⟩ := sameScope_iff.1 hcd
        rw [sameScope_iff, ← htable, ← hregion, ← hgathered, ← sameScope_iff,
          h e he] at hed
        cases hed
      rw [List.nil_append, joinPieces_context]
      match joinPieces after, hafter with
      | [], _ => rfl
      | .line l :: rest, _ => rfl
      -- behind the context another scope begins
      | .context d :: rest, hafter =>
          rw [consContext,
            if_neg (by rw [hafter d List.mem_cons_self]; decide)]
          rfl
  | cons p before ih =>
      have hrest := ih fun d hd => h d (List.mem_cons_of_mem p hd)
      cases p with
      | line l =>
          rw [List.cons_append, joinPieces_line, hrest, joinPieces_line]; rfl
      | context e =>
          rw [List.cons_append, joinPieces_context, hrest, joinPieces_context]
          match joinPieces before with
          | [] =>
              rw [List.nil_append, consContext,
                if_neg (by rw [h e List.mem_cons_self]; decide)]
              rfl
          | .line l :: rest => rfl
          | .context d :: rest =>
              rw [List.cons_append, consContext, consContext]
              split <;> rfl

-- ======================================================= joined and read

section

variable {plan : Plan} {p : Progress} {s : Stage}

theorem kept_join {c d : Context} (h : c.region = d.region) :
    (c.join d).kept = c.kept ++ d.kept := by
  unfold Context.kept Context.join
  rw [← h]
  by_cases hbody : c.region = .body
  · simp only [if_pos hbody, List.filter_append]
  · simp only [if_neg hbody]

theorem know_know (n : Names) (table : Text) :
    (n.know table).know table = n.know table := by
  unfold Names.know
  simp only [Names.mk.injEq, and_self, and_true, true_and]
  exact List.insert_of_mem List.mem_insert_self

theorem see_see (p : Progress) (table : Text) :
    (p.see (some table)).see (some table) = p.see (some table) := by
  unfold Progress.see
  simp only [Option.elim_some, Progress.mk.injEq, true_and]
  exact List.insert_of_mem List.mem_insert_self

/-- What was seen does not matter to what is written for a context. -/
theorem writeContext_see (c : Context) (table : Option Text) :
    writeContext plan (p.see table) c
      = ((writeContext plan p c).1, (writeContext plan p c).2.see table) := by
  unfold writeContext writeBinding
  by_cases hempty : c.statements.isEmpty = true
  · rw [if_pos hempty, if_pos hempty]
  · rw [if_neg hempty, if_neg hempty]
    by_cases hnew : (plan.bindable.contains c.table
        && !p.isBound (tableAlias c.table) c.table) = true
    · have hnew' : (plan.bindable.contains c.table
          && !(p.see table).isBound (tableAlias c.table) c.table)
            = true := hnew
      rw [if_pos hnew, if_pos hnew']
      rfl
    · have hnew' : ¬(plan.bindable.contains c.table
          && !(p.see table).isBound (tableAlias c.table) c.table)
            = true := hnew
      rw [if_neg hnew, if_neg hnew']

/-- A binding is not written twice in a row. -/
theorem writeBinding_again (table : Text) :
    writeBinding plan (writeBinding plan p table).2 table
      = ([], (writeBinding plan p table).2) := by
  unfold writeBinding
  by_cases hnew : (plan.bindable.contains table
    && !p.isBound (tableAlias table) table) = true
  · rw [if_pos hnew, if_neg]
    simp [Progress.isBound, Progress.bind]
  · rw [if_neg hnew, if_neg hnew]

/-- Two contexts of one scope in a row are written as one. -/
theorem writeContext_join (plan : Plan) {c d : Context}
    (h : c.sameScope d = true) (rest : List Piece) :
    joinPieces ((writeContext plan p c).1
          ++ ((writeContext plan (writeContext plan p c).2 d).1 ++ rest))
        = joinPieces ((writeContext plan p (c.join d)).1 ++ rest)
      ∧ (writeContext plan (writeContext plan p c).2 d).2
        = (writeContext plan p (c.join d)).2 := by
  obtain ⟨htable, hregion, hgathered⟩ := sameScope_iff.1 h
  by_cases hc : c.statements = []
  -- the first has nothing, so the second is both
  · have hjoin : c.join d = d := by
      obtain ⟨t, r, g, ss⟩ := c
      obtain ⟨t', r', g', ss'⟩ := d
      simp only at htable hregion hgathered hc
      subst htable hregion hgathered hc
      rfl
    rw [writeContext_of_nil hc, hjoin]
    exact ⟨rfl, rfl⟩
  by_cases hd : d.statements = []
  -- the second has nothing, so the first is both
  · have hjoin : c.join d = c := by
      unfold Context.join
      rw [hd, List.append_nil]
    rw [writeContext_of_nil hd, hjoin]
    exact ⟨rfl, rfl⟩
  have hboth : (c.join d).statements ≠ [] := by
    unfold Context.join
    simp [hc]
  rw [writeContext_of_ne hc, writeContext_of_ne hd,
    writeContext_of_ne hboth, ← htable]
  simp only [writeBinding_again, List.nil_append]
  refine ⟨?_, rfl⟩
  rw [List.append_assoc, List.append_assoc]
  exact joinPieces_congr (joinPieces_join h rest) _

namespace Stage

/-- Two contexts of one scope in a row are read and written as one. -/
theorem run_join (hnoticed : s.progress.Noticed plan) {c d : Context}
    (hresolved : s.names.aliases.lookup (tableAlias c.table) = some c.table)
    (h : c.sameScope d = true) (ps : List Piece) :
    joinPieces (s.run plan (.context (c.join d) :: ps)).1
        = joinPieces (s.run plan (.context c :: .context d :: ps)).1
      ∧ (s.run plan (.context (c.join d) :: ps)).2
        = (s.run plan (.context c :: .context d :: ps)).2 := by
  obtain ⟨htable, hregion, hgathered⟩ := sameScope_iff.1 h
  have hscope : (⟨c.table, c.region, false, c.kept⟩ : Context).sameScope
      ⟨d.table, d.region, false, d.kept⟩ = true :=
        sameScope_iff.2 ⟨htable, hregion, rfl⟩
  have hsettled : ((s.step plan (.context c)).2).progress.Settled plan
      d.table := by
    rw [← htable]
    refine settled_step hnoticed ?_
    rw [blockOf_context hresolved]
    rfl
  have hresolved' : (s.step plan (.context c)).2.names.aliases.lookup
      (tableAlias d.table)
      = some d.table := by
    rw [step_context hnoticed hresolved, ← htable]
    exact hresolved
  have hsecond := step_context (noticed_step hnoticed (.context c)) hresolved'
  have hjoined := step_context (c := c.join d) hnoticed hresolved
  rw [settle_of_settled hsettled, step_context hnoticed hresolved] at hsecond
  rw [kept_join hregion] at hjoined
  obtain ⟨hwritten, hprogress⟩ := writeContext_join plan
    (p := (settle plan s.progress c.table).2) hscope
    ((⟨s.names.know c.table,
        (writeContext plan (settle plan s.progress c.table).2
          ⟨c.table, c.region, false, c.kept ++ d.kept⟩).2.see (some c.table)⟩ :
            Stage).run plan ps).1
  -- the second step notes the table once more, and knows it once more
  have hstage : (s.step plan (.context c)).2.step plan (.context d)
      = ((writeContext plan
            (writeContext plan (settle plan s.progress c.table).2
              ⟨c.table, c.region, false, c.kept⟩).2
            ⟨d.table, d.region, false, d.kept⟩).1,
          (s.step plan (.context (c.join d))).2) := by
    rw [step_context hnoticed hresolved, hsecond, hjoined]
    simp only [writeContext_see, List.nil_append, ← htable, know_know, see_see]
    simp only [← htable] at hprogress
    rw [hprogress]
    rfl
  rw [run_cons, run_cons, run_cons, hstage, hjoined,
    step_context hnoticed hresolved]
  refine ⟨?_, rfl⟩
  simp only [List.append_assoc]
  exact (joinPieces_congr hwritten _).symm

theorem resolved_join {n : Names} {c d : Context} (h : c.sameScope d = true)
    {ps : List Piece} (hps : Resolved n (.context c :: .context d :: ps)) :
    Resolved n (.context (c.join d) :: ps) := by
  obtain ⟨htable, -, -⟩ := sameScope_iff.1 h
  obtain ⟨hc, hd, hrest⟩ := hps
  refine ⟨hc, ?_⟩
  rw [blockOf_context hd, blockOf_context hc, ← htable, know_know] at hrest
  rw [blockOf_context (c := c.join d) hc]
  exact hrest

/-- It makes no difference to what is read and written whether pieces are
joined first. -/
theorem run_joinPieces (hnoticed : s.progress.Noticed plan) {ps : List Piece}
    (h : Resolved s.names ps) :
    joinPieces (s.run plan (joinPieces ps)).1 = joinPieces (s.run plan ps).1
      ∧ (s.run plan (joinPieces ps)).2 = (s.run plan ps).2
      ∧ Resolved s.names (joinPieces ps) := by
  refine joinPieces_induction
    (motive := fun ps qs => ∀ s : Stage, s.progress.Noticed plan →
      Resolved s.names ps →
        joinPieces (s.run plan qs).1 = joinPieces (s.run plan ps).1
        ∧ (s.run plan qs).2 = (s.run plan ps).2 ∧ Resolved s.names qs) ?_ ?_ ?_
    ps s hnoticed h
  · exact fun _ _ _ => ⟨rfl, rfl, trivial⟩
  · intro p ps qs ih s hnoticed h
    obtain ⟨hwritten, hstage, hresolved⟩ := ih _ (noticed_step hnoticed p) h.2
    rw [run_cons, run_cons]
    exact ⟨joinPieces_congr hwritten _, hstage, h.1, hresolved⟩
  · intro c d ps qs hscope ih s hnoticed h
    obtain ⟨hwritten, hstage, hresolved⟩ := ih s hnoticed h
    obtain ⟨hwritten', hstage'⟩ := run_join hnoticed hresolved.1 hscope qs
    exact ⟨hwritten'.trans hwritten, hstage'.trans hstage,
      resolved_join hscope hresolved⟩

end Stage

end

-- ==================================================== the joined normal form

theorem created_joinPieces (ps : List Piece) :
    createdIn (joinPieces ps) = createdIn ps := by
  refine joinPieces_induction
    (motive := fun ps qs => createdIn qs = createdIn ps) rfl ?_ ?_ ps
  · intro p ps qs ih
    unfold createdIn at ih ⊢
    rw [List.filterMap_cons, List.filterMap_cons, ih]
  · exact fun c d ps qs _ ih => ih

theorem body_join {c d : Context} (h : c.sameScope d = true) (table : Text) :
    (Piece.context (c.join d)).body table
      = (Piece.context c).body table ++ (Piece.context d).body table := by
  obtain ⟨htable, hregion, -⟩ := sameScope_iff.1 h
  show (if c.table = table ∧ c.region = .body then c.statements ++ d.statements
      else []) = _
  rw [Piece.body, Piece.body, ← htable, ← hregion]
  split <;> rfl

/-- Joining moves no statement. -/
theorem bodyIn_joinPieces (ps : List Piece) :
    bodyIn (joinPieces ps) = bodyIn ps := by
  funext table
  refine joinPieces_induction
    (motive := fun ps qs => bodyIn qs table = bodyIn ps table)
    rfl ?_ ?_ ps
  · intro p ps qs ih
    rw [bodyIn_cons, bodyIn_cons, ih]
  · intro c d ps qs hscope ih
    rw [← ih, bodyIn_cons, bodyIn_cons, bodyIn_cons, body_join hscope,
      List.append_assoc]

theorem dataIn_joinPieces (ps : List Piece) :
    dataIn (joinPieces ps) = dataIn ps := by
  unfold dataIn
  rw [bodyIn_joinPieces]

/-- Pieces are written by the plan of their joined form. -/
theorem planOf_joinPieces {ps : List Piece} (h : Resolved .none ps) :
    planOf (joinPieces ps) = planOf ps := by
  obtain ⟨-, hstage, hresolved⟩ :=
    Stage.run_joinPieces (Stage.noticed_start (planOf ps)) h
  have hnames : (blocksOf .none ((joinPieces ps).map Piece.chunk)).2
      = (blocksOf .none (ps.map Piece.chunk)).2 := by
    have hnames := congrArg Stage.names hstage
    rw [Stage.names_run, Stage.names_run] at hnames
    exact hnames
  have hcreated : (planOf (joinPieces ps)).created = (planOf ps).created := by
    rw [created_planOf, created_planOf, created_joinPieces]
  have hdata : (planOf (joinPieces ps)).data = (planOf ps).data := by
    rw [data_planOf hresolved, data_planOf h, dataIn_joinPieces]
  have hbindable : (planOf (joinPieces ps)).bindable = (planOf ps).bindable :=
    congrArg Names.bindable hnames
  generalize planOf (joinPieces ps) = a at hcreated hdata hbindable ⊢
  generalize planOf ps = b at hcreated hdata hbindable ⊢
  cases a
  cases b
  simp only at hcreated hdata hbindable
  rw [hcreated, hdata, hbindable]

/-- Pieces and their joined form have the same normal form. -/
theorem normalPieces_joinPieces {ps : List Piece} (h : Resolved .none ps) :
    normalPieces (joinPieces ps) = normalPieces ps := by
  obtain ⟨hwritten, -, hresolved⟩ :=
    Stage.run_joinPieces (Stage.noticed_start (planOf ps)) h
  rw [normalPieces_eq, normalPieces_eq, planOf_joinPieces h, hwritten]

end GridScript.Script
