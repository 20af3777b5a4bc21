/-
Scripts that create their tables themselves: each table once, under its own
local name, and before anything is written to it. For these the normal form
has a closed form (`normalPieces_built`). What is written for a piece
depends on nothing but the piece and the literals of the tables: a creation
is followed by the literals of its table, a binding is dropped, and
everything else stays.

# Why that is worth having

A closed form can be compared piece by piece. Two such scripts that are
written alike, whatever the literals are, stay so when the same is put
behind both (`Alike.append`). The normal form of a script is written like
the script itself (`alike_normalPieces`), so it can take its place.
-/
import GridScript.Proofs.Script.Log

namespace GridScript.Script

open Text (allBlank)

variable {plan : Plan} {s : Stage} {created : List Text}
  {data : Text → List Statement}

-- ============================================================ the closed form

/-- The literals of a table, if it has any. -/
def literalsOf (data : Text → List Statement) (table : Text) : List Piece :=
  if data table = [] then [] else [.context ⟨table, .body, true, data table⟩]

/-- What is written for a piece, given the literals of the tables. -/
def Piece.emit (data : Text → List Statement) : Piece → List Piece
  | line l =>
    match creation? (tokens l) with
    | some c =>
        .line (tableAlias c.table ++ " = ".toList ++ c.call)
          :: literalsOf data c.table
    | none => if (declaration? (tokens l)).isSome then [] else [.line l]
  | context c =>
      if c.kept = [] then [] else [.context ⟨c.table, c.region, false, c.kept⟩]

/-- What is written for pieces. -/
def emitAll (data : Text → List Statement) (ps : List Piece) : List Piece :=
  ps.flatMap (Piece.emit data)

theorem emitAll_append (ps qs : List Piece) :
    emitAll data (ps ++ qs) = emitAll data ps ++ emitAll data qs :=
  List.flatMap_append

theorem emitAll_cons (x : Piece) (ps : List Piece) :
    emitAll data (x :: ps) = x.emit data ++ emitAll data ps :=
  List.flatMap_cons

theorem emit_creation {l : Text} {c : Creation}
    (h : creation? (tokens l) = some c) :
    (Piece.line l).emit data
      = .line (tableAlias c.table ++ " = ".toList ++ c.call)
        :: literalsOf data c.table := by
  simp only [Piece.emit, h]

theorem emit_declaration {l name table : Text}
    (h : declaration? (tokens l) = some (name, table)) :
    (Piece.line l).emit data = [] := by
  simp only [Piece.emit, creation?_of_declaration? h, h]
  rfl

theorem emit_line {l : Text} (hcreation : creation? (tokens l) = none)
    (hdeclaration : declaration? (tokens l) = none) :
    (Piece.line l).emit data = [.line l] := by
  simp only [Piece.emit, hcreation, hdeclaration]
  rfl

-- ========================================================== built scripts

/-- A piece that creates a new table under its own name, binds the name of
an old one again, says something about the project, or writes to an old
table. -/
def Piece.BuildsOn (created : List Text) : Piece → Prop
  | line l =>
    (∀ c, creation? (tokens l) = some c →
        c.binding.getD (tableAlias c.table) = tableAlias c.table
          ∧ c.table ∉ created
          ∧ ∀ t ∈ created, tableAlias t ≠ tableAlias c.table)
      ∧ (∀ name table, declaration? (tokens l) = some (name, table) →
          name = tableAlias table ∧ table ∈ created)
      ∧ (creation? (tokens l) = none → declaration? (tokens l) = none →
        marginTarget? l = none)
      ∧ allBlank l = false
  | context c => c.table ∈ created

/-- Each piece builds on the tables that were created before it. -/
def Built (created : List Text) : List Piece → Prop
  | [] => True
  | x :: xs => x.BuildsOn created ∧ Built (x.created?.toList ++ created) xs

theorem Piece.BuildsOn.congr {x : Piece} {created' : List Text}
    (h : x.BuildsOn created) (hsame : ∀ t, t ∈ created' ↔ t ∈ created) :
    x.BuildsOn created' := by
  cases x with
  | context c => exact (hsame c.table).2 h
  | line l =>
      obtain ⟨hcreation, hdeclaration, hrest⟩ := h
      refine ⟨?_, ?_, hrest⟩
      · intro c hc
        obtain ⟨hname, hnew, hother⟩ := hcreation c hc
        exact ⟨hname, fun hin => hnew ((hsame _).1 hin),
          fun t ht => hother t ((hsame t).1 ht)⟩
      · intro name table hd
        obtain ⟨hname, hin⟩ := hdeclaration name table hd
        exact ⟨hname, (hsame _).2 hin⟩

/-- The order in which tables were created does not matter. -/
theorem Built.congr {ps : List Piece} {created' : List Text}
    (h : Built created ps) (hsame : ∀ t, t ∈ created' ↔ t ∈ created) :
    Built created' ps := by
  induction ps generalizing created created' with
  | nil => trivial
  | cons x ps ih =>
      refine ⟨h.1.congr hsame, ih h.2 ?_⟩
      intro t
      rw [List.mem_append, List.mem_append, hsame]

theorem built_append {ps qs : List Piece} :
    Built created (ps ++ qs)
      ↔ Built created ps ∧ Built (createdIn ps ++ created) qs := by
  induction ps generalizing created with
  | nil => exact ⟨fun h => ⟨trivial, h⟩, fun h => h.2⟩
  | cons x ps ih =>
      have hsame : ∀ t, t ∈ createdIn (x :: ps) ++ created
          ↔ t ∈ createdIn ps ++ (x.created?.toList ++ created) := by
        intro t
        rw [createdIn_cons]
        simp only [List.mem_append]
        rw [or_assoc, or_left_comm]
      show _ ∧ Built _ (ps ++ qs) ↔ (_ ∧ Built _ ps) ∧ Built _ qs
      rw [ih, and_assoc]
      refine and_congr_right fun _ => and_congr_right fun _ => ?_
      exact ⟨fun h => h.congr hsame, fun h => h.congr fun t => (hsame t).symm⟩

-- ============================================================= one step

/-- The tables that were created are bound and their literals are written,
and no others are. -/
structure Stage.Knows (plan : Plan) (created : List Text) (s : Stage) :
    Prop where
  noticed : s.progress.Noticed plan
  bound : ∀ t ∈ created, s.progress.bound.lookup (tableAlias t) = some t
  aliased : ∀ t ∈ created, s.names.aliases.lookup (tableAlias t) = some t
  flushed : ∀ t, plan.data t ≠ [] → (t ∈ s.progress.flushed ↔ t ∈ created)

/-- The plan knows what is created, and nothing else has literals. -/
structure Plan.Creates (plan : Plan) : Prop where
  data : ∀ t, plan.data t ≠ [] → t ∈ plan.created

/-- A table that the script does not create has nothing to settle. -/
theorem Plan.Creates.settled (h : plan.Creates) (p : Progress) (table : Text) :
    p.Settled plan table ∨ plan.data table = [] := by
  by_cases hdata : plan.data table = []
  · exact Or.inr hdata
  · exact Or.inl (Or.inl (h.data table hdata))

/-- The literals of a table that is bound are written behind no binding. -/
theorem flush_of_bound {p : Progress} {table : Text} (hnew : table ∉ p.flushed)
    (hbound : p.bound.lookup (tableAlias table) = some table) :
    flush plan p table
      = (literalsOf plan.data table, { p with
          flushed := table :: p.flushed }) := by
  rw [flush_of_not_flushed hnew]
  unfold literalsOf
  by_cases hdata : plan.data table = []
  · rw [if_pos hdata]
    exact writeContext_of_nil hdata
  · rw [if_neg hdata]
    exact writeContext_of_bound hdata hbound

namespace Stage.Knows

theorem resolves (h : s.Knows plan created) {x : Piece}
    (hx : x.BuildsOn created) :
    x.ResolvesIn s.names := by
  cases x with
  | context c => exact h.aliased c.table hx
  | line l => trivial

theorem start : Stage.start.Knows plan [] where
  noticed := noticed_start plan
  bound := fun t ht => by cases ht
  aliased := fun t ht => by cases ht
  flushed := fun t _ => Iff.rfl

/-- A creation is written with the literals of its table. -/
theorem creation (h : s.Knows plan created) {l : Text} {c : Creation}
    (hc : creation? (tokens l) = some c)
    (hname : c.binding.getD (tableAlias c.table) = tableAlias c.table)
    (hnew : c.table ∉ created)
    (hother : ∀ t ∈ created, tableAlias t ≠ tableAlias c.table) :
    (s.step plan (.line l)).1 = (Piece.line l).emit plan.data
      ∧ (s.step plan (.line l)).2.Knows plan (c.table :: created) := by
  have hnoticed := noticed_step h.noticed (.line l)
  have hstep : s.step plan (.line l) = _ := step_creation hc
  rw [hname] at hstep
  have hbound : (s.progress.bind (tableAlias c.table) c.table).bound.lookup
      (tableAlias c.table)
      = some c.table := by
    simp [Progress.bind]
  have hrebound : ∀ {a : Aliases},
      (∀ t ∈ created, a.lookup (tableAlias t) = some t) →
      ∀ t ∈ c.table :: created,
        (a.rebind (tableAlias c.table) c.table).lookup (tableAlias t)
        = some t := by
    intro a ha t ht
    rw [Aliases.lookup_rebind]
    rcases List.mem_cons.1 ht with rfl | ht
    · rw [if_pos rfl]
    · rw [if_neg (hother t ht), ha t ht]
  rw [emit_creation hc]
  by_cases hdata : plan.data c.table = []
  · -- no literals, and whether they count as written does not matter
    obtain ⟨hout, hsame, hflushed⟩ := flush_of_nil
      (p := s.progress.bind (tableAlias c.table) c.table) hdata
    rw [hstep] at hnoticed ⊢
    have hnone : literalsOf plan.data c.table = [] := if_pos hdata
    refine ⟨by rw [hout, hnone], hnoticed, ?_, hrebound h.aliased, ?_⟩
    · intro t ht
      show (flush plan _ c.table).2.bound.lookup _ = _
      rw [hsame]
      exact hrebound h.bound t ht
    · intro t ht
      have hne : t ≠ c.table := fun heq => ht (heq ▸ hdata)
      rw [List.mem_cons, or_iff_right hne]
      exact (hflushed t ht).trans (h.flushed t ht)
  -- the literals come right behind, and count as written from here on
  · have hfresh : c.table
        ∉ (s.progress.bind (tableAlias c.table) c.table).flushed :=
      fun hin => hnew ((h.flushed c.table hdata).1 hin)
    rw [flush_of_bound hfresh hbound] at hstep
    rw [hstep] at hnoticed ⊢
    refine ⟨rfl, hnoticed, hrebound h.bound, hrebound h.aliased, ?_⟩
    intro t ht
    show t ∈ c.table :: s.progress.flushed ↔ _
    rw [List.mem_cons, List.mem_cons, h.flushed t ht]

/-- A context of an old table is written with the statements it keeps. -/
theorem context (h : s.Knows plan created) {c : Context}
    (hin : c.table ∈ created) (hplanned : c.table ∈ plan.created) :
    (s.step plan (.context c)).1 = (Piece.context c).emit plan.data
      ∧ (s.step plan (.context c)).2.Knows plan created := by
  have hnoticed := noticed_step h.noticed (.context c)
  have hstep := step_context (c := c) h.noticed (h.aliased c.table hin)
  rw [settle_of_settled (Or.inl hplanned)] at hstep
  rw [hstep] at hnoticed ⊢
  have hwrite : writeContext plan s.progress ⟨c.table, c.region, false, c.kept⟩
      = ((Piece.context c).emit plan.data, s.progress) := by
    rw [Piece.emit]
    by_cases hkept : c.kept = []
    · rw [if_pos hkept]
      exact writeContext_of_nil hkept
    · rw [if_neg hkept]
      exact writeContext_of_bound hkept (h.bound c.table hin)
  simp only [hwrite] at hnoticed ⊢
  exact ⟨rfl, hnoticed, h.bound, h.aliased, h.flushed⟩

/-- The binding of an old table under its own name is left out. -/
theorem declaration (h : s.Knows plan created) {l name table : Text}
    (hd : declaration? (tokens l) = some (name, table))
    (hname : name = tableAlias table) (hin : table ∈ created)
    (hplanned : table ∈ plan.created) :
    (s.step plan (.line l)).1 = (Piece.line l).emit plan.data
      ∧ (s.step plan (.line l)).2.Knows plan created := by
  have hnoticed := noticed_step h.noticed (.line l)
  have hbound := h.bound table hin
  rw [← hname] at hbound
  have hstep := step_redundant h.noticed hd hname hbound
  rw [settle_of_settled (Or.inl hplanned)] at hstep
  rw [hstep] at hnoticed ⊢
  rw [emit_declaration hd]
  refine ⟨rfl, hnoticed, h.bound, ?_, h.flushed⟩
  intro t ht
  simp only [Names.bind, Aliases.lookup_rebind]
  split
  case isFalse => exact h.aliased t ht
  case isTrue heq =>
      -- one name stands for one table
      have hboth := h.bound t ht
      rw [heq, hbound] at hboth
      exact hboth

/-- Any other line is written as it is. -/
theorem line (hplan : plan.Creates) (h : s.Knows plan created) {l : Text}
    (hcreation : creation? (tokens l) = none)
    (hdeclaration : declaration? (tokens l) = none)
    (htarget : marginTarget? l = none) :
    (s.step plan (.line l)).1 = (Piece.line l).emit plan.data
      ∧ (s.step plan (.line l)).2.Knows plan created := by
  have hnoticed := noticed_step h.noticed (.line l)
  have hstep := step_line h.noticed hcreation hdeclaration
  have hafter : s.progress.afterLine l = s.progress := by
    unfold Progress.afterLine
    rw [htarget]
  rw [hafter] at hstep
  rw [hstep] at hnoticed ⊢
  rw [emit_line hcreation hdeclaration]
  have haliased : ∀ t ∈ created,
      (s.names.afterLine l
        (mention? s.names.aliases (tokens l))).aliases.lookup
        (tableAlias t) = some t := by
    intro t ht
    rw [aliases_afterLine]
    exact h.aliased t ht
  cases hmention : mention? s.names.aliases (tokens l) with
  | none =>
      rw [hmention] at hnoticed haliased
      exact ⟨rfl, hnoticed, h.bound, haliased, h.flushed⟩
  | some table =>
      rw [hmention] at hnoticed haliased
      obtain ⟨hout, hsame, hflushed⟩ :=
        settle_quiet (hplan.settled s.progress table)
      refine ⟨congrArg (Piece.line l :: ·) hout, hnoticed, ?_, haliased, ?_⟩
      · intro t ht
        show (settle plan s.progress table).2.bound.lookup _ = _
        rw [hsame]
        exact h.bound t ht
      · intro t ht
        exact (hflushed t ht).trans (h.flushed t ht)

/-- Each piece is written in its closed form. -/
theorem step (hplan : plan.Creates) (h : s.Knows plan created) {x : Piece}
    (hx : x.BuildsOn created) (hcreated : ∀ t ∈ created, t ∈ plan.created) :
    (s.step plan x).1 = x.emit plan.data
      ∧ (s.step plan x).2.Knows plan (x.created?.toList ++ created) := by
  cases x with
  | context c => exact h.context hx (hcreated c.table hx)
  | line l =>
      obtain ⟨hcreation, hdeclaration, htarget, -⟩ := hx
      rcases Piece.cases_line l
        with ⟨c, hc⟩ | ⟨name, table, hd⟩ | ⟨hnone, hnone'⟩
      · obtain ⟨hname, hnew, hother⟩ := hcreation c hc
        rw [Piece.created?, hc]
        exact h.creation hc hname hnew hother
      · obtain ⟨hname, hin⟩ := hdeclaration name table hd
        rw [Piece.created?, creation?_of_declaration? hd]
        exact h.declaration hd hname hin (hcreated table hin)
      · rw [Piece.created?, hnone]
        exact h.line hplan hnone hnone' (htarget hnone hnone')

/-- And so are all. -/
theorem run (hplan : plan.Creates) (h : s.Knows plan created) {ps : List Piece}
    (hps : Built created ps) (hcreated : ∀ t ∈ created, t ∈ plan.created)
    (hmore : ∀ t ∈ createdIn ps, t ∈ plan.created) :
    (s.run plan ps).1 = emitAll plan.data ps ∧ Resolved s.names ps := by
  induction ps generalizing s created with
  | nil => exact ⟨rfl, trivial⟩
  | cons x ps ih =>
      rw [createdIn_cons] at hmore
      obtain ⟨hwritten, hknows⟩ := h.step hplan hps.1 hcreated
      obtain ⟨hrest, hresolved⟩ := ih hknows hps.2
        (fun t ht => (List.mem_append.1 ht).elim
          (fun hin => hmore t (List.mem_append_left _ hin)) (hcreated t))
        (fun t ht => hmore t (List.mem_append_right _ ht))
      rw [Stage.run_cons, emitAll_cons, hwritten, hrest]
      exact ⟨rfl, h.resolves hps.1, hresolved⟩

end Stage.Knows

-- ============================================================ the closed form

/-- The tables that are written to are created. -/
theorem mem_created_of_context {ps : List Piece} (h : Built created ps)
    {c : Context} (hc : Piece.context c ∈ ps) :
    c.table ∈ createdIn ps ++ created := by
  induction ps generalizing created with
  | nil => cases hc
  | cons x ps ih =>
      rw [createdIn_cons]
      rcases List.mem_cons.1 hc with rfl | hc
      · exact List.mem_append_right _ h.1
      · have hin := ih h.2 hc
        simp only [List.mem_append] at hin ⊢
        rw [or_assoc, or_left_comm]
        exact hin

/-- The headers of a built script are resolved. -/
theorem Built.resolved {ps : List Piece} (h : Built [] ps) :
    Resolved .none ps := by
  have hplan : (Plan.mk [] (createdIn ps) fun _ => []).Creates :=
    ⟨fun t ht => absurd rfl ht⟩
  exact (Stage.Knows.start.run hplan h
    (fun t ht => by cases ht) fun t ht => ht).2

theorem run_built {ps : List Piece} (h : Built [] ps) :
    (Stage.start.run (planOf ps) ps).1 = emitAll (dataIn ps) ps := by
  have hplan : (planOf ps).Creates := by
    refine ⟨?_⟩
    intro t ht
    rw [data_planOf h.resolved] at ht
    obtain ⟨c, hc, rfl⟩ := exists_context_of_dataIn ht
    have hin := mem_created_of_context h hc
    rw [List.append_nil] at hin
    exact mem_created_planOf.2 hin
  have hrun := (Stage.Knows.start.run hplan h (fun t ht => by cases ht)
    fun t ht => mem_created_planOf.2 ht).1
  rw [data_planOf h.resolved] at hrun
  exact hrun

/-- The normal form of a built script, in closed form. -/
theorem normalPieces_built {ps : List Piece} (h : Built [] ps) :
    normalPieces ps = joinPieces (emitAll (dataIn ps) ps) := by
  rw [normalPieces_eq, run_built h]

-- ===================================================== written twice

/-- What is written for a piece is written like the piece, whatever the
literals are then. -/
theorem emitAll_emit {data' : Text → List Statement}
    (hdata : ∀ t, ∀ st ∈ data t, st.isData = true) (x : Piece) :
    emitAll data' (x.emit data) = x.emit data' := by
  cases x with
  | context c =>
      rw [Piece.emit, Piece.emit]
      by_cases hkept : c.kept = []
      · rw [if_pos hkept]
        rfl
      · have hagain : (Context.mk c.table c.region false c.kept).kept
            = c.kept := c.kept_kept
        rw [if_neg hkept, emitAll_cons, Piece.emit, hagain, if_neg hkept]
        rfl
  | line l =>
      rcases Piece.cases_line l
        with ⟨c, hc⟩ | ⟨name, table, hd⟩ | ⟨hcreation, hdeclaration⟩
      -- a creation stays one, and its literals are not written again
      · have hread :=
          creation?_rebound (reads_tokens l) hc (isWord_tableAlias c.table)
        have hliterals : emitAll data' (literalsOf data c.table) = [] := by
          unfold literalsOf
          split
          case isTrue => rfl
          case isFalse =>
              have hkept : (Context.mk c.table .body true (data c.table)).kept
                  = [] := by
                unfold Context.kept
                rw [if_pos rfl, List.filter_eq_nil_iff]
                intro st hst
                rw [hdata c.table st hst]
                decide
              rw [emitAll_cons, Piece.emit, if_pos hkept]
              rfl
        rw [emit_creation hc, emit_creation hc, emitAll_cons,
          emit_creation hread, hliterals, List.append_nil]
      · rw [emit_declaration hd, emit_declaration hd]
        rfl
      · rw [emit_line hcreation hdeclaration, emit_line hcreation hdeclaration,
          emitAll_cons, emit_line hcreation hdeclaration]
        rfl

theorem emitAll_emitAll {data' : Text → List Statement}
    (hdata : ∀ t, ∀ st ∈ data t, st.isData = true) (ps : List Piece) :
    emitAll data' (emitAll data ps) = emitAll data' ps := by
  induction ps with
  | nil => rfl
  | cons x ps ih =>
      rw [emitAll_cons, emitAll_append, emitAll_emit hdata, ih, emitAll_cons]

/-- Two contexts of one scope in a row are written like one. -/
theorem joinPieces_emit_join {c d : Context} (h : c.sameScope d = true)
    (ps : List Piece) :
    joinPieces ((Piece.context (c.join d)).emit data ++ ps)
      = joinPieces
        ((Piece.context c).emit data
          ++ ((Piece.context d).emit data ++ ps)) := by
  obtain ⟨htable, hregion, -⟩ := sameScope_iff.1 h
  have hkept := kept_join hregion
  have hscope : (Context.mk c.table c.region false c.kept).sameScope
      ⟨d.table, d.region, false, d.kept⟩ = true :=
        sameScope_iff.2 ⟨htable, hregion, rfl⟩
  rw [Piece.emit, Piece.emit, Piece.emit, hkept]
  by_cases hc : c.kept = []
  · rw [if_pos hc, hc, List.nil_append]
    simp only [Context.join, htable, hregion, List.nil_append]
  · by_cases hd : d.kept = []
    · rw [if_pos hd, hd, List.append_nil]
      rfl
    · have hboth : c.kept ++ d.kept ≠ [] :=
        fun hnil => hc (List.append_eq_nil_iff.1 hnil).1
      rw [if_neg hc, if_neg hd, if_neg hboth]
      exact (joinPieces_join hscope ps).symm

/-- It makes no difference whether pieces are joined before they are
written. -/
theorem joinPieces_emitAll_joinPieces (ps : List Piece) :
    joinPieces (emitAll data (joinPieces ps))
      = joinPieces (emitAll data ps) := by
  refine joinPieces_induction (motive := fun ps qs =>
    joinPieces (emitAll data qs) = joinPieces (emitAll data ps)) rfl ?_ ?_ ps
  · intro x ps qs ih
    rw [emitAll_cons, emitAll_cons]
    exact joinPieces_congr ih _
  · intro c d ps qs hscope ih
    rw [← ih, emitAll_cons, emitAll_cons, emitAll_cons]
    exact joinPieces_emit_join hscope _

-- ======================================================== alike scripts

/-- Two scripts that are written the same, whatever the literals are, and
that create the same tables and have the same literals themselves. -/
structure Alike (ps qs : List Piece) : Prop where
  emitted : ∀ data, joinPieces (emitAll data ps) = joinPieces (emitAll data qs)
  data : dataIn ps = dataIn qs
  created : createdIn ps = createdIn qs

namespace Alike

variable {ps qs rs : List Piece}

theorem refl (ps : List Piece) : Alike ps ps := ⟨fun _ => rfl, rfl, rfl⟩

theorem symm (h : Alike ps qs) : Alike qs ps :=
  ⟨fun data => (h.emitted data).symm, h.data.symm, h.created.symm⟩

theorem trans (h : Alike ps qs) (h' : Alike qs rs) : Alike ps rs :=
  ⟨fun data => (h.emitted data).trans (h'.emitted data), h.data.trans h'.data,
    h.created.trans h'.created⟩

/-- The same may be put behind both. -/
theorem append (h : Alike ps qs) (more : List Piece) :
    Alike (ps ++ more) (qs ++ more) := by
  refine ⟨?_, ?_, ?_⟩
  · intro data
    rw [emitAll_append, emitAll_append, ← joinPieces_append, h.emitted data,
      joinPieces_append]
  · funext t
    rw [dataIn_append, dataIn_append, h.data]
  · rw [createdIn_append, createdIn_append, h.created]

/-- Built scripts that are alike have one normal form. -/
theorem normalPieces_eq (h : Alike ps qs) (hps : Built [] ps)
    (hqs : Built [] qs) :
    normalPieces ps = normalPieces qs := by
  rw [normalPieces_built hps, normalPieces_built hqs, h.emitted, h.data]

end Alike

/-- The normal form of a built script is like the script. -/
theorem alike_normalPieces {ps : List Piece} (h : Built [] ps) :
    Alike (normalPieces ps) ps := by
  have hresolved := h.resolved
  refine ⟨?_, ?_, ?_⟩
  · intro data
    have hdata : ∀ t, ∀ st ∈ dataIn ps t, st.isData = true :=
      fun t st hst => isData_of_mem_dataIn st hst
    rw [normalPieces_built h, joinPieces_emitAll_joinPieces,
      emitAll_emitAll hdata]
  · rw [normalPieces_eq, dataIn_joinPieces, dataIn_run hresolved]
  · rw [normalPieces_eq, created_joinPieces,
      createdIn_run (Stage.noticed_start _) hresolved]

-- ================================================ the normal form is built

theorem allBlank_of_isWord {w : Text} (h : Text.IsWord w) (rest : Text) :
    allBlank (w ++ rest) = false := by
  cases w with
  | nil => exact h.elim
  | cons c w =>
      rw [List.cons_append, Text.allBlank_cons, h.isBlank c List.mem_cons_self]
      rfl

/-- What is written for a piece is built like the piece. -/
theorem built_emit (data : Text → List Statement) {x : Piece}
    (h : x.BuildsOn created) :
    Built created (x.emit data)
      ∧ createdIn (x.emit data) = x.created?.toList := by
  cases x with
  | context c =>
      rw [Piece.emit]
      split
      case isTrue => exact ⟨trivial, rfl⟩
      case isFalse => exact ⟨⟨h, trivial⟩, rfl⟩
  | line l =>
      obtain ⟨hcreation, hdeclaration, htarget, hblank⟩ := h
      rcases Piece.cases_line l
        with ⟨c, hc⟩ | ⟨name, table, hd⟩ | ⟨hnone, hnone'⟩
      -- a creation, and behind it the literals of the new table
      · obtain ⟨-, hnew, hother⟩ := hcreation c hc
        have hread :=
          creation?_rebound (reads_tokens l) hc (isWord_tableAlias c.table)
        have hliterals : Built (c.table :: created) (literalsOf data c.table)
            ∧ createdIn (literalsOf data c.table) = [] := by
          unfold literalsOf
          split
          case isTrue => exact ⟨trivial, rfl⟩
          case isFalse => exact ⟨⟨List.mem_cons_self, trivial⟩, rfl⟩
        have hcreated : (Piece.line
            (tableAlias c.table ++ " = ".toList ++ c.call)).created?
            = some c.table := by
          rw [Piece.created?, hread]
          rfl
        rw [emit_creation hc, createdIn_cons, hliterals.2, hcreated,
          Piece.created?, hc]
        refine ⟨⟨⟨?_, ?_, ?_, ?_⟩, ?_⟩, rfl⟩
        · intro d hd
          rw [hread] at hd
          injection hd with hd
          rw [← hd]
          exact ⟨rfl, hnew, hother⟩
        · intro name table hd
          rw [creation?_of_declaration? hd] at hread
          cases hread
        · intro hnone
          rw [hread] at hnone
          cases hnone
        · rw [List.append_assoc]
          exact allBlank_of_isWord (isWord_tableAlias c.table) _
        · rw [hcreated]
          exact hliterals.1
      · rw [emit_declaration hd, Piece.created?, creation?_of_declaration? hd]
        exact ⟨trivial, rfl⟩
      · rw [emit_line hnone hnone', createdIn_cons]
        exact ⟨⟨⟨hcreation, hdeclaration, htarget, hblank⟩, trivial⟩,
          List.append_nil _⟩

theorem built_emitAll {ps : List Piece} (h : Built created ps) :
    Built created (emitAll data ps) := by
  induction ps generalizing created with
  | nil => trivial
  | cons x ps ih =>
      obtain ⟨hfirst, hcreated⟩ := built_emit data h.1
      rw [emitAll_cons, built_append, hcreated]
      exact ⟨hfirst, ih h.2⟩

theorem built_joinPieces {ps : List Piece} (h : Built created ps) :
    Built created (joinPieces ps) := by
  refine joinPieces_induction (motive := fun ps qs => ∀ created,
    Built created ps → Built created qs) (fun _ h => h) ?_ ?_ ps created h
  · exact fun x ps qs ih created h => ⟨h.1, ih _ h.2⟩
  · intro c d ps qs _ ih created h
    obtain ⟨hc, -, hrest⟩ := ih created h
    exact ⟨hc, hrest⟩

/-- The normal form of a built script is built. -/
theorem Built.normalPieces {ps : List Piece} (h : Built [] ps) :
    Built [] (normalPieces ps) := by
  rw [normalPieces_built h]
  exact built_joinPieces (built_emitAll h)

/-- A line that is joined stood there before. -/
theorem line_mem_of_joinPieces {ps : List Piece} {l : Text}
    (h : .line l ∈ joinPieces ps) :
    .line l ∈ ps := by
  refine joinPieces_induction
    (motive := fun ps qs => .line l ∈ qs → .line l ∈ ps)
      (fun h => h) ?_ ?_ ps h
  · intro p ps qs ih hl
    rcases List.mem_cons.1 hl with rfl | hl
    · exact List.mem_cons_self
    · exact List.mem_cons_of_mem p (ih hl)
  · intro c d ps qs _ ih hl
    have hrest := (List.mem_cons.1 hl).resolve_left (by simp)
    exact ih (List.mem_cons_of_mem _ (List.mem_cons_of_mem _ hrest))

/-- No line that is written declares a name. -/
theorem not_declaration_of_emit {x : Piece} {l : Text}
    (h : .line l ∈ x.emit data) :
    declaration? (tokens l) = none := by
  cases x with
  | context c =>
      rw [Piece.emit] at h
      split at h
      case isTrue => cases h
      case isFalse => cases List.mem_singleton.1 h
  | line m =>
      rcases Piece.cases_line m
        with ⟨c, hc⟩ | ⟨name, table, hd⟩ | ⟨hnone, hnone'⟩
      · rw [emit_creation hc] at h
        rcases List.mem_cons.1 h with h | h
        -- the creation is read as one again, behind its new name
        · injection h with h
          have hread :=
            creation?_rebound (reads_tokens m) hc (isWord_tableAlias c.table)
          rw [h]
          cases hd : declaration?
            (tokens (tableAlias c.table ++ " = ".toList ++ c.call)) with
          | none => rfl
          | some found =>
              rw [creation?_of_declaration? hd] at hread
              cases hread
        · unfold literalsOf at h
          split at h
          case isTrue => cases h
          case isFalse => cases List.mem_singleton.1 h
      · rw [emit_declaration hd] at h
        cases h
      · rw [emit_line hnone hnone', List.mem_singleton] at h
        injection h with h
        rw [h]
        exact hnone'

/-- Nothing declares a name in the normal form of a built script. -/
theorem not_declaration_of_built {ps : List Piece} (h : Built [] ps) {l : Text}
    (hl : .line l ∈ normalPieces ps) : declaration? (tokens l) = none := by
  rw [normalPieces_built h] at hl
  obtain ⟨x, -, hx⟩ := List.mem_flatMap.1 (line_mem_of_joinPieces hl)
  exact not_declaration_of_emit hx

end GridScript.Script
