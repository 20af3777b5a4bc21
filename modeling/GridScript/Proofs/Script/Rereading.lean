/-
What is written is read and written again unchanged. One run writes a
script, and a second run by the same plan reads it: whatever the first has
written for one piece, the second writes the same for it.

# How the two runs stand to each other

After each piece of the first run the second has bound the same names and
written the literals of the same tables, and every name that is bound is
known to it (`Tracks`). It knows more names than the first, for a binding
that was written is a declaration that is read; but every table that it
knows by a name is settled (`Stage.Orderly`). So where the two runs differ
in the table that they take a line to mention, nothing comes of it.

# When literals are written

The literals of a table may be read back at two times. Where they stand
behind a creation, a declaration or a line that mentions their table, the
second run writes them with that line and passes over them when it comes
to them (`reread_flush_again`). Anywhere else it comes to them first
(`reread_settle`). What stays in place is always read where it stands
(`reread_kept`).
-/
import GridScript.Proofs.Script.Planning

namespace GridScript.Script

variable {plan : Plan} {p : Progress} {s : Stage}

/-- The literals of a table, as a context. -/
def Plan.literals (plan : Plan) (table : Text) : Context :=
  ⟨table, .body, true, plan.data table⟩

-- ============================================================ good plans

/-- A plan that gathers literals only, of tables that may be bound. -/
structure Plan.Good (plan : Plan) : Prop where
  literal : ∀ table, ∀ st ∈ plan.data table, st.isData = true
  bindable : ∀ table, plan.data table ≠ [] → table ∈ plan.bindable

/-- Nothing of the literals stays in place. -/
theorem Plan.Good.kept_literals (h : plan.Good) (table : Text) :
    (plan.literals table).kept = [] := by
  unfold Context.kept literals
  rw [if_pos rfl, List.filter_eq_nil_iff]
  intro st hst
  rw [h.literal table st hst]
  decide

/-- What stays in place stays there again. -/
theorem Context.kept_kept (c : Context) :
    (Context.mk c.table c.region false c.kept).kept = c.kept := by
  unfold kept
  by_cases hregion : c.region = .body
  · simp only [if_pos hregion, List.filter_filter, Bool.and_self]
  · simp only [if_neg hregion]

-- ============================================================ order

/-- Every table that is known by a name is settled, and so is every table
that was seen. -/
structure Stage.Orderly (plan : Plan) (s : Stage) : Prop where
  noticed : s.progress.Noticed plan
  named : ∀ name table, s.names.aliases.lookup name = some table →
    s.progress.Settled plan table

theorem Stage.orderly_start : Stage.start.Orderly plan where
  noticed := noticed_start plan
  named := fun name table h => by cases h

/-- A step keeps the order if its piece creates a table of the plan. -/
theorem Stage.Orderly.step (h : s.Orderly plan) {x : Piece}
    (hcreated : ∀ t ∈ x.created?, t ∈ plan.created)
    (hx : x.ResolvesIn s.names) :
    (s.step plan x).2.Orderly plan := by
  refine ⟨noticed_step h.noticed x, ?_⟩
  intro name table hlookup
  have hold : ∀ {table}, s.progress.Settled plan table →
      (s.step plan x).2.progress.Settled plan table :=
    fun hsettled => settled_step_of_settled h.noticed hsettled x
  cases x with
  | context c =>
      have hnames : (s.step plan (.context c)).2.names
          = s.names.know c.table := by
        rw [step_context h.noticed hx]
      rw [hnames] at hlookup
      exact hold (h.named name table hlookup)
  | line l =>
      rcases Piece.cases_line l
        with ⟨c, hc⟩ | ⟨name', table', hd⟩ | ⟨hcreation, hdeclaration⟩
      -- the new name stands for the created table, which needs no settling
      · rw [step_creation hc] at hlookup
        simp only [Names.bind, Aliases.lookup_rebind] at hlookup
        split at hlookup
        case isTrue =>
            injection hlookup with htable
            rw [← htable]
            exact Or.inl (hcreated c.table (by simp [Piece.created?, hc]))
        case isFalse => exact hold (h.named name table hlookup)
      -- a declaration settles the table that it names
      · have hnames : (s.step plan (.line l)).2.names
            = s.names.bind name' table' := by
          unfold Stage.step
          rw [blockOf_declaration hd]
        rw [hnames] at hlookup
        simp only [Names.bind, Aliases.lookup_rebind] at hlookup
        split at hlookup
        case isTrue =>
            injection hlookup with htable
            rw [← htable]
            refine settled_step h.noticed ?_
            rw [blockOf_declaration hd]
            rfl
        case isFalse => exact hold (h.named name table hlookup)
      -- any other line gives no name to a table
      · have hnames : (s.step plan (.line l)).2.names.aliases
            = s.names.aliases := by
          unfold Stage.step
          rw [blockOf_line hcreation hdeclaration]
          exact aliases_afterLine _ _ _
        rw [hnames] at hlookup
        exact hold (h.named name table hlookup)

-- ============================================================= one reading

/-- Without literals there is nothing to write. -/
theorem flush_of_nil {table : Text} (h : plan.data table = []) :
    (flush plan p table).1 = [] ∧ (flush plan p table).2.bound = p.bound
      ∧ ∀ t, plan.data t ≠ [] →
        (t ∈ (flush plan p table).2.flushed ↔ t ∈ p.flushed) := by
  by_cases hflushed : table ∈ p.flushed
  · rw [flush_of_flushed hflushed]
    exact ⟨rfl, rfl, fun t _ => Iff.rfl⟩
  · rw [flush_of_not_flushed hflushed, writeContext_of_nil h]
    refine ⟨rfl, rfl, ?_⟩
    intro t ht
    have hne : t ≠ table := fun heq => ht (heq ▸ h)
    simp [hne]

theorem settle_of_nil {table : Text} (h : plan.data table = []) :
    (settle plan p table).1 = [] ∧ (settle plan p table).2.bound = p.bound
      ∧ ∀ t, plan.data t ≠ [] →
        (t ∈ (settle plan p table).2.flushed ↔ t ∈ p.flushed) := by
  unfold settle
  split
  case isTrue => exact ⟨rfl, rfl, fun t _ => Iff.rfl⟩
  case isFalse => exact flush_of_nil h

namespace Stage

variable {table : Text}

/-- A binding that says nothing new settles its table. -/
theorem step_bindingLine_of_bound (h : s.progress.Noticed plan)
    (hbound : s.progress.bound.lookup (tableAlias table) = some table) :
    s.step plan (.line (bindingLine table))
      = ((settle plan s.progress table).1,
          ⟨s.names.bind (tableAlias table) table,
            (settle plan s.progress table).2.see (some table)⟩) :=
  step_redundant h (declaration?_bindingLine table) rfl hbound

/-- Any other binding is kept. -/
theorem step_bindingLine_of_not_bound (h : s.progress.Noticed plan)
    (hbound : ¬s.progress.bound.lookup (tableAlias table) = some table) :
    s.step plan (.line (bindingLine table))
      = (.line (bindingLine table)
            :: (settle plan (s.progress.bind (tableAlias table) table)
              table).1,
          ⟨s.names.bind (tableAlias table) table,
            (settle plan (s.progress.bind (tableAlias table) table)
              table).2.see
              (some table)⟩) := by
  rw [step_declaration h (declaration?_bindingLine table) fun hboth =>
    hbound hboth.2, trimEnd_bindingLine]

/-- What stays in place is written where it is read. -/
theorem step_kept (h : s.progress.Noticed plan) {c : Context}
    (hne : c.statements ≠ []) (hkept : c.kept = c.statements)
    (hgathered : c.gathered = false)
    (hresolved : s.names.aliases.lookup (tableAlias c.table) = some c.table)
    (hbound : s.progress.bound.lookup (tableAlias c.table) = some c.table)
    (hsettled : s.progress.Settled plan c.table) :
    s.step plan (.context c)
      = ([.context c],
        ⟨s.names.know c.table, s.progress.see (some c.table)⟩) := by
  have hcontext : (⟨c.table, c.region, false, c.kept⟩ : Context) = c := by
    obtain ⟨t, region, gathered, statements⟩ := c
    simp only [Context.mk.injEq, true_and] at hkept hgathered ⊢
    exact ⟨hgathered.symm, hkept⟩
  rw [step_context h hresolved, hcontext, settle_of_settled hsettled]
  simp only [writeContext_of_bound hne hbound, List.nil_append]

/-- Literals that are written are passed over. -/
theorem step_literals_of_settled (hgood : plan.Good)
    (h : s.progress.Noticed plan)
    (hresolved : s.names.aliases.lookup (tableAlias table) = some table)
    (hsettled : s.progress.Settled plan table) :
    s.step plan (.context (plan.literals table))
      = ([], ⟨s.names.know table, s.progress.see (some table)⟩) := by
  have hkept := hgood.kept_literals table
  rw [step_context h hresolved, hkept]
  simp only [Plan.literals, settle_of_settled hsettled, writeContext_of_nil,
    List.nil_append]

end Stage

-- ============================================================== rereading

/-- Pieces are read from a stage on with all their headers resolved, and
something is written for them. -/
structure Reread (plan : Plan) (s : Stage) (ps out : List Piece) (s' : Stage) :
    Prop where
  resolved : Resolved s.names ps
  run : s.run plan ps = (out, s')

namespace Reread

variable {s' s'' : Stage} {ps qs out out' : List Piece}

theorem nil : Reread plan s [] [] s := ⟨trivial, rfl⟩

theorem cons {x : Piece} (hx : x.ResolvesIn s.names)
    (hstep : s.step plan x = (out, s')) (hrest : Reread plan s' ps out' s'') :
    Reread plan s (x :: ps) (out ++ out') s'' := by
  constructor
  · have hnames : (blockOf s.names x.chunk).2 = s'.names :=
      congrArg (fun r => r.2.names) hstep
    exact ⟨hx, hnames ▸ hrest.resolved⟩
  · rw [Stage.run_cons, hstep]
    simp only [hrest.run]

theorem line {l : Text} (hstep : s.step plan (.line l) = (out, s'))
    (hrest : Reread plan s' ps out' s'') :
    Reread plan s (.line l :: ps) (out ++ out') s'' :=
  cons (x := .line l) trivial hstep hrest

theorem context {c : Context}
    (hresolved : s.names.aliases.lookup (tableAlias c.table) = some c.table)
    (hstep : s.step plan (.context c) = (out, s'))
    (hrest : Reread plan s' ps out' s'') :
    Reread plan s (.context c :: ps) (out ++ out') s'' :=
  cons (x := .context c) hresolved hstep hrest

theorem append (h : Reread plan s ps out s')
    (hrest : Reread plan s' qs out' s'') :
    Reread plan s (ps ++ qs) (out ++ out') s'' := by
  constructor
  · have hnames : (blocksOf s.names (ps.map Piece.chunk)).2 = s'.names := by
      have hnames : (s.run plan ps).2.names = _ := Stage.names_run ps
      rw [← hnames, h.run]
    rw [resolved_append, hnames]
    exact ⟨h.resolved, hrest.resolved⟩
  · rw [Stage.run_append, h.run]
    simp only [hrest.run]

end Reread

/-- The second run has bound and written what the first has. -/
structure Tracks (plan : Plan) (p : Progress) (s : Stage) : Prop where
  bound : s.progress.bound = p.bound
  flushed : ∀ t, plan.data t ≠ [] → (t ∈ s.progress.flushed ↔ t ∈ p.flushed)
  aliased : ∀ name table, p.bound.lookup name = some table →
    s.names.aliases.lookup name = some table

/-- What the first run has settled, the second has settled as well, unless
there is nothing to settle. -/
theorem Tracks.settled (h : Tracks plan p s) {table : Text}
    (hsettled : p.Settled plan table) :
    s.progress.Settled plan table ∨ plan.data table = [] := by
  by_cases hdata : plan.data table = []
  · exact Or.inr hdata
  · exact Or.inl (hsettled.imp_right (h.flushed table hdata).2)

/-- Settling what is settled changes nothing that is tracked. -/
theorem settle_quiet {table : Text}
    (h : p.Settled plan table ∨ plan.data table = []) :
    (settle plan p table).1 = [] ∧ (settle plan p table).2.bound = p.bound
      ∧ ∀ t, plan.data t ≠ [] →
        (t ∈ (settle plan p table).2.flushed ↔ t ∈ p.flushed) := by
  rcases h with hsettled | hdata
  · rw [settle_of_settled hsettled]
    exact ⟨rfl, rfl, fun t _ => Iff.rfl⟩
  · exact settle_of_nil hdata

/-- A line that binds a table's name creates no table. -/
theorem Stage.Orderly.step_bindingLine (h : s.Orderly plan) (table : Text) :
    (s.step plan (.line (bindingLine table))).2.Orderly plan := by
  refine h.step ?_ trivial
  intro t ht
  rw [Piece.created?, creation?_bindingLine] at ht
  cases ht

theorem Stage.Orderly.step_context (h : s.Orderly plan) {c : Context}
    (hresolved : s.names.aliases.lookup (tableAlias c.table) = some c.table) :
    (s.step plan (.context c)).2.Orderly plan :=
  h.step (fun t ht => by cases ht) hresolved

/-- Binding a name on both sides keeps what is bound known. -/
theorem aliased_bind {bound aliases : Aliases} (name table : Text)
    (h : ∀ n t, bound.lookup n = some t → aliases.lookup n = some t) :
    ∀ n t, (bound.rebind name table).lookup n = some t →
      (aliases.rebind name table).lookup n = some t := by
  intro n t hlookup
  rw [Aliases.lookup_rebind] at hlookup ⊢
  split at hlookup
  case isTrue hname => rw [if_pos hname, ← hlookup]
  case isFalse hname =>
      rw [if_neg hname]
      exact h n t hlookup

/-- What stays in place is written again where it is read. -/
theorem reread_kept {c : Context} (hne : c.statements ≠ [])
    (hkept : c.kept = c.statements) (hgathered : c.gathered = false)
    (hbindable : c.table ∈ plan.bindable) (h : Tracks plan p s)
    (horder : s.Orderly plan) (hsettled : p.Settled plan c.table) :
    ∃ s', Reread plan s (writeContext plan p c).1 (writeContext plan p c).1 s'
      ∧ Tracks plan (writeContext plan p c).2 s' ∧ s'.Orderly plan := by
  by_cases hbound : p.bound.lookup (tableAlias c.table) = some c.table
  · -- the name is known, and so its table is settled
    have hresolved := h.aliased _ _ hbound
    have hstep := Stage.step_kept horder.noticed hne hkept hgathered hresolved
      (h.bound ▸ hbound) (horder.named _ _ hresolved)
    have horder' := horder.step_context (c := c) hresolved
    rw [hstep] at horder'
    rw [writeContext_of_bound hne hbound]
    exact ⟨_, .context hresolved hstep .nil, ⟨h.bound, h.flushed, h.aliased⟩,
      horder'⟩
  · -- the binding is read first, and settles the table
    rw [writeContext_of_not_bound hne hbindable hbound]
    have hnew : ¬s.progress.bound.lookup (tableAlias c.table) = some c.table :=
      h.bound ▸ hbound
    have hfirst := Stage.step_bindingLine_of_not_bound horder.noticed hnew
    have hquiet : (s.progress.bind (tableAlias c.table) c.table).Settled
        plan c.table
        ∨ plan.data c.table = [] := h.settled hsettled
    obtain ⟨hout, hsame, hflushed⟩ := settle_quiet hquiet
    rw [hout] at hfirst
    have horder₁ := horder.step_bindingLine c.table
    rw [hfirst] at horder₁
    have hresolved : (s.names.bind (tableAlias c.table) c.table).aliases.lookup
        (tableAlias c.table) = some c.table := by
      simp [Names.bind]
    have hbound₁ :
        ((settle plan (s.progress.bind (tableAlias c.table) c.table)
            c.table).2.see (some c.table)).bound.lookup (tableAlias c.table)
          = some c.table := by
      show (settle plan _ c.table).2.bound.lookup _ = _
      rw [hsame]
      simp [Progress.bind]
    have hstep :=
      Stage.step_kept horder₁.noticed hne hkept hgathered hresolved hbound₁
      (horder₁.named _ _ hresolved)
    have horder₂ := horder₁.step_context (c := c) hresolved
    rw [hstep] at horder₂
    refine ⟨_, .line hfirst (.context hresolved hstep .nil), ⟨?_, ?_, ?_⟩,
      horder₂⟩
    · show (settle plan _ c.table).2.bound = _
      rw [hsame]
      simp only [Progress.bind, h.bound]
    · intro t ht
      exact (hflushed t ht).trans (h.flushed t ht)
    · exact aliased_bind _ _ h.aliased

/-- Literals that the second run has written already are passed over, with
the binding in front of them. -/
theorem reread_flush_again (hgood : plan.Good) {table : Text}
    (horder : s.Orderly plan) (hsettled : s.progress.Settled plan table)
    (hbound : s.progress.bound = (flush plan p table).2.bound)
    (hflushed : ∀ t, plan.data t ≠ [] →
      (t ∈ s.progress.flushed ↔ t ∈ (flush plan p table).2.flushed))
    (haliased : ∀ n t, p.bound.lookup n = some t →
      s.names.aliases.lookup n = some t) :
    ∃ s', Reread plan s (flush plan p table).1 [] s'
      ∧ Tracks plan (flush plan p table).2 s' ∧ s'.Orderly plan := by
  by_cases hold : table ∈ p.flushed
  · rw [flush_of_flushed hold] at hbound hflushed ⊢
    exact ⟨s, .nil, ⟨hbound, hflushed, haliased⟩, horder⟩
  rw [flush_of_not_flushed hold] at hbound hflushed ⊢
  by_cases hdata : plan.data table = []
  · rw [writeContext_of_nil hdata] at hbound hflushed ⊢
    exact ⟨s, .nil, ⟨hbound, hflushed, haliased⟩, horder⟩
  rw [← Plan.literals] at hbound hflushed ⊢
  by_cases hname : p.bound.lookup (tableAlias table) = some table
  · -- the name was bound before, and the literals stand alone
    have hresolved := haliased _ _ hname
    rw [writeContext_of_bound hdata hname] at hbound hflushed ⊢
    have hstep :=
      Stage.step_literals_of_settled hgood horder.noticed hresolved hsettled
    have horder' := horder.step_context (c := plan.literals table) hresolved
    rw [hstep] at horder'
    exact ⟨_, .context hresolved hstep .nil, ⟨hbound, hflushed, haliased⟩,
      horder'⟩
  -- the binding is read first, and has nothing left to settle
  · rw [writeContext_of_not_bound hdata
      (hgood.bindable table hdata) hname] at hbound hflushed ⊢
    have hnamed : s.progress.bound.lookup (tableAlias table) = some table := by
      rw [hbound]
      simp [Progress.bind, Plan.literals]
    have hfirst := Stage.step_bindingLine_of_bound horder.noticed hnamed
    rw [settle_of_settled hsettled] at hfirst
    have horder₁ := horder.step_bindingLine table
    rw [hfirst] at horder₁
    have hresolved : (s.names.bind (tableAlias table) table).aliases.lookup
        (tableAlias table) = some table := by
      simp [Names.bind]
    have hstep :=
      Stage.step_literals_of_settled hgood horder₁.noticed hresolved hsettled
    have horder₂ := horder₁.step_context (c := plan.literals table) hresolved
    rw [hstep] at horder₂
    exact ⟨_, .line hfirst (.context hresolved hstep .nil),
      ⟨hbound, hflushed, aliased_bind _ _ haliased⟩, horder₂⟩

/-- Literals that the second run has not written yet are written where it
comes to them. -/
theorem reread_settle (hgood : plan.Good) (h : Tracks plan p s)
    (horder : s.Orderly plan) (table : Text) :
    ∃ s', Reread plan s (settle plan p table).1 (settle plan p table).1 s'
      ∧ Tracks plan (settle plan p table).2 s' ∧ s'.Orderly plan := by
  by_cases hquiet : p.Settled plan table ∨ plan.data table = []
  · obtain ⟨hout, hsame, hflushed⟩ := settle_quiet hquiet
    rw [hout]
    refine ⟨s, .nil, ⟨h.bound.trans hsame.symm, ?_, ?_⟩, horder⟩
    · intro t ht
      exact (h.flushed t ht).trans (hflushed t ht).symm
    · rw [hsame]
      exact h.aliased
  obtain ⟨hopen, hdata⟩ := not_or.1 hquiet
  obtain ⟨hcreated, hfresh⟩ := not_or.1 hopen
  have hfresh' : table ∉ s.progress.flushed :=
    fun hin => hfresh ((h.flushed table hdata).1 hin)
  -- a name that is bound is known, and a table that is known is settled
  have hname : ¬p.bound.lookup (tableAlias table) = some table := by
    intro hname
    rcases horder.named _ _ (h.aliased _ _ hname) with hin | hin
    · exact hcreated hin
    · exact hfresh' hin
  unfold settle
  rw [if_neg hcreated, flush_of_not_flushed hfresh, ← Plan.literals,
    writeContext_of_not_bound hdata (hgood.bindable table hdata) hname]
  have hname' : ¬s.progress.bound.lookup (tableAlias table) = some table :=
    h.bound ▸ hname
  have hwrite : settle plan (s.progress.bind (tableAlias table) table) table
      = ([.context (plan.literals table)],
          { s.progress.bind (tableAlias table) table with
            flushed := table :: s.progress.flushed }) := by
    have hunwritten : table
        ∉ (s.progress.bind (tableAlias table) table).flushed := hfresh'
    unfold settle
    rw [if_neg hcreated, flush_of_not_flushed hunwritten]
    exact writeContext_of_bound hdata (by simp [Progress.bind])
  have hfirst := Stage.step_bindingLine_of_not_bound horder.noticed hname'
  rw [hwrite] at hfirst
  have horder₁ := horder.step_bindingLine table
  rw [hfirst] at horder₁
  have hresolved : (s.names.bind (tableAlias table) table).aliases.lookup
      (tableAlias table) = some table := by
    simp [Names.bind]
  have hstep := Stage.step_literals_of_settled hgood horder₁.noticed hresolved
    (horder₁.named _ _ hresolved)
  have horder₂ := horder₁.step_context (c := plan.literals table) hresolved
  rw [hstep] at horder₂
  refine ⟨_, .line hfirst (.context hresolved hstep .nil), ⟨?_, ?_, ?_⟩,
    horder₂⟩
  · exact congrArg
      (fun b : Aliases => b.rebind (tableAlias table) table) h.bound
  · intro t ht
    show t ∈ table :: s.progress.flushed ↔ t ∈ table :: p.flushed
    rw [List.mem_cons, List.mem_cons, h.flushed t ht]
  · exact aliased_bind _ _ h.aliased

-- ==================================================== equal progress

/-- What is written for a context depends on the names that are bound. -/
theorem writeContext_congr (plan : Plan) {p p' : Progress}
    (hbound : p'.bound = p.bound) (c : Context) :
    (writeContext plan p' c).1 = (writeContext plan p c).1
      ∧ (writeContext plan p' c).2.bound = (writeContext plan p c).2.bound
      ∧ (writeContext plan p' c).2.flushed = p'.flushed := by
  have hisBound : p'.isBound (tableAlias c.table) c.table
      = p.isBound (tableAlias c.table) c.table := by
    unfold Progress.isBound
    rw [hbound]
  unfold writeContext writeBinding Progress.bind
  rw [hisBound, hbound]
  by_cases hempty : c.statements.isEmpty = true
  · rw [if_pos hempty, if_pos hempty]
    exact ⟨rfl, hbound, rfl⟩
  · rw [if_neg hempty, if_neg hempty]
    by_cases hnew : (plan.bindable.contains c.table
        && !p.isBound (tableAlias c.table) c.table) = true
    · rw [if_pos hnew, if_pos hnew]
      exact ⟨rfl, rfl, rfl⟩
    · rw [if_neg hnew, if_neg hnew]
      exact ⟨rfl, hbound, rfl⟩

/-- Writing a context flushes nothing. -/
theorem flushed_writeContext (plan : Plan) (p : Progress) (c : Context) :
    (writeContext plan p c).2.flushed = p.flushed :=
  (writeContext_congr plan (p := p) rfl c).2.2

/-- Two runs that have bound and written the same write the same literals. -/
theorem flush_congr (plan : Plan) {p p' : Progress}
    (hbound : p'.bound = p.bound) (hflushed : ∀ t, plan.data t ≠ [] →
      (t ∈ p'.flushed ↔ t ∈ p.flushed)) (table : Text) :
    (flush plan p' table).1 = (flush plan p table).1
      ∧ (flush plan p' table).2.bound = (flush plan p table).2.bound
      ∧ ∀ t, plan.data t ≠ [] →
          (t ∈ (flush plan p' table).2.flushed
            ↔ t ∈ (flush plan p table).2.flushed) := by
  by_cases hdata : plan.data table = []
  · obtain ⟨hout, hsame, hold⟩ := flush_of_nil (p := p) hdata
    obtain ⟨hout', hsame', hold'⟩ := flush_of_nil (p := p') hdata
    refine ⟨hout'.trans hout.symm, hsame'.trans (hbound.trans hsame.symm), ?_⟩
    intro t ht
    exact (hold' t ht).trans ((hflushed t ht).trans (hold t ht).symm)
  · by_cases hold : table ∈ p.flushed
    · rw [flush_of_flushed hold,
        flush_of_flushed ((hflushed table hdata).2 hold)]
      exact ⟨rfl, hbound, hflushed⟩
    · have hold' : table ∉ p'.flushed :=
        fun hin => hold ((hflushed table hdata).1 hin)
      rw [flush_of_not_flushed hold, flush_of_not_flushed hold']
      have hmore : ({ p' with
          flushed := table :: p'.flushed } : Progress).bound
          = ({ p with flushed := table :: p.flushed } : Progress).bound :=
            hbound
      obtain ⟨hout, hsame, hkeeps'⟩ :=
        writeContext_congr plan hmore ⟨table, .body, true, plan.data table⟩
      have hkeeps :=
        flushed_writeContext plan { p with flushed := table :: p.flushed }
        ⟨table, .body, true, plan.data table⟩
      refine ⟨hout, hsame, ?_⟩
      intro t ht
      rw [hkeeps, hkeeps', List.mem_cons, List.mem_cons, hflushed t ht]

theorem settle_congr (plan : Plan) {p p' : Progress}
    (hbound : p'.bound = p.bound) (hflushed : ∀ t, plan.data t ≠ [] →
      (t ∈ p'.flushed ↔ t ∈ p.flushed)) (table : Text) :
    (settle plan p' table).1 = (settle plan p table).1
      ∧ (settle plan p' table).2.bound = (settle plan p table).2.bound
      ∧ ∀ t, plan.data t ≠ [] →
          (t ∈ (settle plan p' table).2.flushed
            ↔ t ∈ (settle plan p table).2.flushed) := by
  unfold settle
  split
  case isTrue => exact ⟨rfl, hbound, hflushed⟩
  case isFalse => exact flush_congr plan hbound hflushed table

/-- The same of literals that the second run has settled already. -/
theorem reread_settle_again (hgood : plan.Good) {table : Text}
    (horder : s.Orderly plan) (hsettled : s.progress.Settled plan table)
    (hbound : s.progress.bound = (settle plan p table).2.bound)
    (hflushed : ∀ t, plan.data t ≠ [] →
      (t ∈ s.progress.flushed ↔ t ∈ (settle plan p table).2.flushed))
    (haliased : ∀ n t, p.bound.lookup n = some t →
      s.names.aliases.lookup n = some t) :
    ∃ s', Reread plan s (settle plan p table).1 [] s'
      ∧ Tracks plan (settle plan p table).2 s' ∧ s'.Orderly plan := by
  unfold settle at hbound hflushed ⊢
  split
  case isTrue hcreated =>
      rw [if_pos hcreated] at hbound hflushed
      exact ⟨s, .nil, ⟨hbound, hflushed, haliased⟩, horder⟩
  case isFalse hcreated =>
      rw [if_neg hcreated] at hbound hflushed
      exact reread_flush_again hgood horder hsettled hbound hflushed haliased

-- ============================================================== mentions

/-- A table that is mentioned is mentioned by a name that stands for it,
or it is looked up. Whoever knows more names takes a line to mention the
same table or one that it knows by a name. -/
theorem mention?_cases {a b : Aliases}
    (h : ∀ n, a.lookup n ≠ none → b.lookup n ≠ none) (ts : List Token) :
    mention? b ts = mention? a ts ∨ ∃ n t, b.lookup n = some t
      ∧ mention? b ts = some t := by
  unfold mention?
  cases hb : receiver? b ts with
  | some t =>
      right
      unfold receiver? at hb
      split at hb
      next n rest => exact ⟨n, t, hb, rfl⟩
      next => cases hb
  | none =>
      left
      have ha : receiver? a ts = none := by
        unfold receiver? at hb ⊢
        split
        next n rest => exact Decidable.byContradiction fun hne => h n hne hb
        next => rfl
      rw [ha]

-- =========================================================== simulation

/-- The second run has read what the first has written so far. -/
structure Follows (plan : Plan) (s₁ s₂ : Stage) : Prop where
  tracks : Tracks plan s₁.progress s₂
  named : ∀ n, s₁.names.aliases.lookup n ≠ none →
    s₂.names.aliases.lookup n ≠ none
  noticed : s₁.progress.Noticed plan
  order : s₂.Orderly plan

-- ====================================================== names are not lost

/-- A name that stands for a table goes on standing for one. -/
theorem Stage.lookup_step_ne_none {x : Piece} (hx : x.ResolvesIn s.names)
    {n : Text} (h : s.names.aliases.lookup n ≠ none) :
    (s.step plan x).2.names.aliases.lookup n ≠ none := by
  have hrebind : ∀ name table,
      (s.names.bind name table).aliases.lookup n ≠ none := by
    intro name table
    simp only [Names.bind, Aliases.lookup_rebind]
    split
    case isTrue => simp
    case isFalse => exact h
  show (blockOf s.names x.chunk).2.aliases.lookup n ≠ none
  cases x with
  | context c =>
      rw [blockOf_context hx]
      exact h
  | line l =>
      rcases Piece.cases_line l
        with ⟨c, hc⟩ | ⟨name, table, hd⟩ | ⟨hcreation, hdeclaration⟩
      · rw [blockOf_creation hc]
        exact hrebind _ _
      · rw [blockOf_declaration hd]
        exact hrebind name table
      · rw [blockOf_line hcreation hdeclaration, aliases_afterLine]
        exact h

theorem Reread.lookup_ne_none {s' : Stage} {ps out : List Piece}
    (h : Reread plan s ps out s') {n : Text}
    (hn : s.names.aliases.lookup n ≠ none) :
    s'.names.aliases.lookup n ≠ none := by
  obtain ⟨hresolved, hrun⟩ := h
  induction ps generalizing s out with
  | nil =>
      injection hrun with _ hs
      rw [← hs]
      exact hn
  | cons p ps ih =>
      rw [Stage.run_cons] at hrun
      injection hrun with _ hs
      exact ih (Stage.lookup_step_ne_none hresolved.1 hn) hresolved.2
        (Prod.ext rfl hs)

-- ============================================================ one step

section

variable {s₁ s₂ : Stage}

/-- The tables in the plan's hands: what pieces create is in it, and their
contexts may be bound. -/
structure Plan.Covers (plan : Plan) (x : Piece) : Prop where
  created : ∀ t ∈ x.created?, t ∈ plan.created
  bindable : ∀ c, x = .context c → c.table ∈ plan.bindable

/-- Noting a reference is not tracked. -/
theorem Tracks.see (h : Tracks plan p s) (table : Option Text) :
    Tracks plan (p.see table) s :=
  ⟨h.bound, h.flushed, h.aliased⟩

theorem Tracks.afterLine (h : Tracks plan p s) (l : Text) {n : Names}
    (table : Option Text) (hn : n.aliases = s.names.aliases) :
    Tracks plan (p.afterLine l) ⟨n, (s.progress.afterLine l).see table⟩ := by
  have hbound : (s.progress.afterLine l).bound = (p.afterLine l).bound := by
    unfold Progress.afterLine
    cases marginTarget? l with
    | none => exact h.bound
    | some name => exact congrArg (fun b : Aliases => b.without name) h.bound
  have hflushed : ∀ q : Progress, (q.afterLine l).flushed = q.flushed := by
    intro q
    unfold Progress.afterLine
    cases marginTarget? l <;> rfl
  refine ⟨hbound, ?_, ?_⟩
  · intro t ht
    show t ∈ (s.progress.afterLine l).flushed ↔ _
    rw [hflushed, hflushed]
    exact h.flushed t ht
  · intro name t hlookup
    rw [hn]
    refine h.aliased name t ?_
    unfold Progress.afterLine at hlookup
    cases hl : marginTarget? l with
    | none =>
        rw [hl] at hlookup
        exact hlookup
    | some target =>
        rw [hl] at hlookup
        simp only [Progress.unbind, Aliases.lookup_without] at hlookup
        split at hlookup
        case isTrue => cases hlookup
        case isFalse => exact hlookup

theorem Follows.named_bind (h : Follows plan s₁ s₂) (name table : Text)
    {n : Text} (hn : (s₁.names.bind name table).aliases.lookup n ≠ none) :
    (s₂.names.bind name table).aliases.lookup n ≠ none := by
  simp only [Names.bind, Aliases.lookup_rebind] at hn ⊢
  split
  case isTrue => simp
  case isFalse hne =>
      rw [if_neg hne] at hn
      exact h.named n hn

/-- A creation is read as it is written. -/
theorem Follows.creation (hgood : plan.Good) (h : Follows plan s₁ s₂)
    {l : Text} {c : Creation} (hc : creation? (tokens l) = some c)
    (hcreated : c.table ∈ plan.created) :
    ∃ s',
      Reread plan s₂ (s₁.step plan (.line l)).1 (s₁.step plan (.line l)).1 s'
      ∧ Follows plan (s₁.step plan (.line l)).2 s' := by
  have hnoticed := Stage.noticed_step h.noticed (.line l)
  rw [Stage.step_creation hc] at hnoticed ⊢
  generalize hname : c.binding.getD (tableAlias c.table) = name at hnoticed ⊢
  have hword : Text.IsWord name := hname ▸ isWord_binding hc
  have hread := creation?_rebound (reads_tokens l) hc hword
  have hstep : s₂.step plan _ = _ := Stage.step_creation hread
  simp only [Option.getD_some] at hstep
  have horder := h.order.step (x := .line (name ++ " = ".toList ++ c.call)) (by
    intro t ht
    rw [Piece.created?, hread] at ht
    injection ht with ht
    rw [← ht]
    exact hcreated) trivial
  rw [hstep] at horder
  -- the second run writes the literals now, and then comes to them
  have hsame : (s₂.progress.bind name c.table).bound
      = (s₁.progress.bind name c.table).bound :=
    congrArg (fun b : Aliases => b.rebind name c.table) h.tracks.bound
  obtain ⟨hout, hbound, hflushed⟩ :=
    flush_congr plan hsame h.tracks.flushed c.table
  rw [hout] at hstep
  obtain ⟨s', hreread, htracks, horder'⟩ := reread_flush_again
    (p := s₁.progress.bind name c.table) hgood horder
      (Or.inl hcreated) hbound hflushed
    (aliased_bind _ _ h.tracks.aliased)
  refine ⟨s', ?_, htracks, ?_, hnoticed, horder'⟩
  · have hwhole := Reread.line hstep hreread
    rw [List.append_nil] at hwhole
    exact hwhole
  · intro n hn
    exact hreread.lookup_ne_none (h.named_bind _ _ hn)

/-- A declaration is read as it is written, and one that is dropped is not
missed. -/
theorem Follows.declaration (hgood : plan.Good) (h : Follows plan s₁ s₂)
    {l name table : Text} (hd : declaration? (tokens l) = some (name, table)) :
    ∃ s',
      Reread plan s₂ (s₁.step plan (.line l)).1 (s₁.step plan (.line l)).1 s'
      ∧ Follows plan (s₁.step plan (.line l)).2 s' := by
  have hnoticed := Stage.noticed_step h.noticed (.line l)
  by_cases hredundant : name = tableAlias table
    ∧ s₁.progress.bound.lookup name = some table
  -- the line is dropped in the first run, so the second never sees it
  · rw [Stage.step_redundant h.noticed hd hredundant.1
      hredundant.2] at hnoticed ⊢
    obtain ⟨s', hreread, htracks, horder⟩ :=
      reread_settle hgood h.tracks h.order table
    refine ⟨s', hreread, htracks.see _, ?_, hnoticed, horder⟩
    intro n hn
    refine hreread.lookup_ne_none ?_
    simp only [Names.bind, Aliases.lookup_rebind] at hn
    split at hn
    case isTrue hname =>
        rw [hname, h.tracks.aliased name table hredundant.2]
        simp
    case isFalse => exact h.named n hn
  -- both runs keep the line
  · rw [Stage.step_declaration h.noticed hd hredundant] at hnoticed ⊢
    have hread := declaration?_trimEnd hd
    have hnew : ¬(name = tableAlias table
        ∧ s₂.progress.bound.lookup name = some table) := by
      rw [h.tracks.bound]
      exact hredundant
    have hstep := Stage.step_declaration h.order.noticed hread hnew
    have horder := h.order.step (x := .line (Text.trimEnd l)) (by
      intro t ht
      rw [Piece.created?, creation?_of_declaration? hread] at ht
      cases ht) trivial
    rw [hstep] at horder
    have hsame : (s₂.progress.bind name table).bound
        = (s₁.progress.bind name table).bound :=
      congrArg (fun b : Aliases => b.rebind name table) h.tracks.bound
    obtain ⟨hout, hbound, hflushed⟩ :=
      settle_congr plan hsame h.tracks.flushed table
    rw [hout, Text.trimEnd_trimEnd] at hstep
    obtain ⟨s', hreread, htracks, horder'⟩ := reread_settle_again
      (p := s₁.progress.bind name table) hgood horder
        (settled_settle table) hbound hflushed
      (aliased_bind _ _ h.tracks.aliased)
    refine ⟨s', ?_, htracks.see _, ?_, hnoticed, horder'⟩
    · have hwhole := Reread.line hstep hreread
      rw [List.append_nil] at hwhole
      exact hwhole
    · intro n hn
      exact hreread.lookup_ne_none (h.named_bind _ _ hn)

/-- Where a line is taken to mention a settled table, or the table that the
first run has taken it to mention, the literals behind it are read as they
are written: with the line, or where they stand. -/
theorem reread_settleMention (hgood : plan.Good) {p q : Progress}
    {names : Names} {mention mention' : Option Text}
    (htracks : ∀ table, Tracks plan p ⟨names, q.see table⟩)
    (horder : Stage.Orderly plan
      ⟨names, (settleMention plan q mention').2.see mention'⟩)
    (hmention : mention' = mention ∨ ∃ t, q.Settled plan t
      ∧ mention' = some t) :
    ∃ out s', (settleMention plan q mention').1 ++ out
      = (settleMention plan p mention).1
      ∧ Reread plan ⟨names, (settleMention plan q mention').2.see mention'⟩
          (settleMention plan p mention).1 out s'
      ∧ Tracks plan (settleMention plan p mention).2 s' ∧ s'.Orderly plan := by
  rcases hmention with rfl | ⟨t, hsettled, rfl⟩
  -- both runs see the same table mentioned, or none
  · cases mention' with
    | none => exact ⟨[], _, rfl, .nil, htracks none, horder⟩
    | some t =>
        obtain ⟨hout, hbound, hflushed⟩ :=
          settle_congr plan (htracks none).bound (htracks none).flushed t
        obtain ⟨s', hreread, htracks', horder'⟩ :=
          reread_settle_again hgood horder
          (settled_settle t) hbound hflushed (htracks none).aliased
        exact ⟨[], s', (List.append_nil _).trans hout, hreread, htracks',
          horder'⟩
  -- the second run sees another one, which is settled
  · have hquiet : settleMention plan q (some t) = ([], q) :=
      settle_of_settled hsettled
    rw [hquiet] at horder ⊢
    cases mention with
    | none => exact ⟨[], _, rfl, .nil, htracks (some t), horder⟩
    | some t₁ =>
        obtain ⟨s', hreread, htracks', horder'⟩ :=
          reread_settle hgood (htracks (some t)) horder t₁
        exact ⟨_, s', rfl, hreread, htracks', horder'⟩

/-- A line is read as it is written, also if it is taken to mention another
table. -/
theorem Follows.line (hgood : plan.Good) (h : Follows plan s₁ s₂) {l : Text}
    (hcreation : creation? (tokens l) = none)
    (hdeclaration : declaration? (tokens l) = none) :
    ∃ s',
      Reread plan s₂ (s₁.step plan (.line l)).1 (s₁.step plan (.line l)).1 s'
      ∧ Follows plan (s₁.step plan (.line l)).2 s' := by
  have hnoticed := Stage.noticed_step h.noticed (.line l)
  rw [Stage.step_line h.noticed hcreation hdeclaration] at hnoticed ⊢
  have hstep := Stage.step_line h.order.noticed hcreation hdeclaration
  have horder := h.order.step (x := .line l) (by
    intro t ht
    rw [Piece.created?, hcreation] at ht
    cases ht) trivial
  rw [hstep] at horder
  have hnames : ∀ n,
        (s₁.names.afterLine l
          (mention? s₁.names.aliases (tokens l))).aliases.lookup n
        ≠ none →
      (s₂.names.afterLine l
        (mention? s₂.names.aliases (tokens l))).aliases.lookup n ≠ none := by
    intro n hn
    rw [aliases_afterLine] at hn ⊢
    exact h.named n hn
  have htracks := fun table => h.tracks.afterLine l table
    (aliases_afterLine s₂.names l (mention? s₂.names.aliases (tokens l)))
  have hmention : mention? s₂.names.aliases (tokens l)
      = mention? s₁.names.aliases (tokens l)
      ∨ ∃ t, (s₂.progress.afterLine l).Settled plan t
        ∧ mention? s₂.names.aliases (tokens l) = some t := by
    refine (mention?_cases h.named (tokens l)).imp_right ?_
    rintro ⟨n, t, hknown, hmention⟩
    exact ⟨t, (extends_afterLine l).settled (h.order.named n t hknown),
      hmention⟩
  obtain ⟨out, s', hout, hreread, htracks', horder'⟩ :=
    reread_settleMention hgood htracks horder hmention
  refine ⟨s', ?_, htracks'.see _, ?_, hnoticed, horder'⟩
  · have hwhole := Reread.line hstep hreread
    rw [List.cons_append, hout] at hwhole
    exact hwhole
  · intro n hn
    exact hreread.lookup_ne_none (hnames n hn)

/-- A context is read as it is written. -/
theorem Follows.context (hgood : plan.Good) (h : Follows plan s₁ s₂)
    {c : Context}
    (hresolved : s₁.names.aliases.lookup (tableAlias c.table) = some c.table)
    (hbindable : c.table ∈ plan.bindable) :
    ∃ s', Reread plan s₂ (s₁.step plan (.context c)).1
      (s₁.step plan (.context c)).1 s'
      ∧ Follows plan (s₁.step plan (.context c)).2 s' := by
  have hnoticed := Stage.noticed_step h.noticed (.context c)
  rw [Stage.step_context h.noticed hresolved] at hnoticed ⊢
  obtain ⟨s, hsettle, htracks, horder⟩ :=
    reread_settle hgood h.tracks h.order c.table
  have hnamed : ∀ n, (s₁.names.know c.table).aliases.lookup n ≠ none →
      s.names.aliases.lookup n ≠ none :=
        fun n hn => hsettle.lookup_ne_none (h.named n hn)
  by_cases hkept : c.kept = []
  · rw [writeContext_of_nil (c := ⟨c.table, c.region, false, c.kept⟩)
      hkept] at hnoticed ⊢
    simp only [List.append_nil]
    exact ⟨s, hsettle, htracks.see _, hnamed, hnoticed, horder⟩
  · obtain ⟨s', hown, htracks', horder'⟩ := reread_kept
      (c := ⟨c.table, c.region, false, c.kept⟩) hkept c.kept_kept rfl hbindable
        htracks horder
      (settled_settle c.table)
    exact ⟨s', hsettle.append hown, htracks'.see _,
      fun n hn => hown.lookup_ne_none (hnamed n hn), hnoticed, horder'⟩

/-- One step of the first run is followed by the second. -/
theorem Follows.step (hgood : plan.Good) (h : Follows plan s₁ s₂) {x : Piece}
    (hx : x.ResolvesIn s₁.names) (hcovers : plan.Covers x) :
    ∃ s', Reread plan s₂ (s₁.step plan x).1 (s₁.step plan x).1 s'
      ∧ Follows plan (s₁.step plan x).2 s' := by
  cases x with
  | context c => exact h.context hgood hx (hcovers.bindable c rfl)
  | line l =>
      rcases Piece.cases_line l
        with ⟨c, hc⟩ | ⟨name, table, hd⟩ | ⟨hcreation, hdeclaration⟩
      · exact h.creation hgood hc
          (hcovers.created c.table (by simp [Piece.created?, hc]))
      · exact h.declaration hgood hd
      · exact h.line hgood hcreation hdeclaration

/-- And so is the whole run. -/
theorem Follows.run (hgood : plan.Good) (h : Follows plan s₁ s₂)
    {ps : List Piece} (hps : Resolved s₁.names ps)
    (hcovers : ∀ x ∈ ps, plan.Covers x) :
    ∃ s', Reread plan s₂ (s₁.run plan ps).1 (s₁.run plan ps).1 s'
      ∧ Follows plan (s₁.run plan ps).2 s' := by
  induction ps generalizing s₁ s₂ with
  | nil => exact ⟨s₂, .nil, h⟩
  | cons x ps ih =>
      obtain ⟨s, hfirst, hfollows⟩ :=
        h.step hgood hps.1 (hcovers x List.mem_cons_self)
      obtain ⟨s', hrest, hfollows'⟩ :=
        ih hfollows hps.2 fun y hy => hcovers y (List.mem_cons_of_mem x hy)
      exact ⟨s', hfirst.append hrest, hfollows'⟩

theorem follows_start (plan : Plan) : Follows plan .start .start where
  tracks := ⟨rfl, fun t _ => Iff.rfl, fun n t h => by cases h⟩
  named := fun n h => h
  noticed := Stage.noticed_start plan
  order := Stage.orderly_start

end

end GridScript.Script
