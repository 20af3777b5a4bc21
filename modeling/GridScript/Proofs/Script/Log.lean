/-
Logs whose lines are pieces. The log of one empty line is an empty log,
and its normal form has no line; any other log that is normalized keeps the
lines that are not about tables. So the normal form of a log is one empty
line for no log (`eq_of_normalPieces_blank`), and normalizing it again
does not take that line away.
-/
import GridScript.Proofs.Script.Idempotent
import GridScript.Proofs.Text.Cuts

namespace GridScript.Script

open Text (Unbroken)

-- ============================================================ flat logs

/-- A log of whole lines is its lines. -/
theorem flatLines_of_whole {ls : List Text} (h : ∀ l ∈ ls, Whole l) :
    flatLines ls = ls := by
  induction ls with
  | nil => rfl
  | cons l ls ih =>
      obtain ⟨⟨hfeed, hreturn⟩, hls⟩ := List.forall_mem_cons.1 h
      have hrest := ih hls
      unfold flatLines at hrest ⊢
      rw [List.flatMap_cons, Text.splitOn_of_not_mem hfeed,
        List.singleton_append, List.map_cons, Text.dropLast_of_ne hreturn,
        hrest]

theorem flatLines_of_unbroken {ls : List Text} (h : ∀ l ∈ ls, Unbroken l) :
    flatLines ls = ls :=
  flatLines_of_whole fun l hl => whole_of_unbroken (h l hl)

theorem unbroken_headerLine (id : Text) (region : Region) :
    Unbroken (headerLine id region) := by
  have hname := (isWord_tableAlias id).unbroken
  unfold headerLine
  split
  case isTrue =>
      have hregion := unbroken_quote region.name
      simp only [Text.unbroken_append, Text.unbroken_cons]
      exact ⟨⟨⟨⟨⟨by decide, by decide⟩, by decide, hname⟩, by decide⟩,
        hregion⟩, by decide⟩
  case isFalse =>
      simp only [Text.unbroken_append, Text.unbroken_cons]
      exact ⟨⟨⟨by decide, by decide⟩, by decide, hname⟩, by decide⟩

/-- The lines of a fit piece are unbroken. -/
theorem Piece.Fit.unbroken {p : Piece} (h : p.Fit) :
    ∀ l ∈ p.render, Unbroken l := by
  intro l hl
  cases p with
  | line m =>
      rw [List.mem_singleton.1 hl]
      exact PlainLine.unbroken h
  | context c =>
      rcases List.mem_cons.1 hl with rfl | hl
      · exact unbroken_headerLine c.table c.region
      · obtain ⟨st, hst, hl⟩ := List.mem_flatMap.1 hl
        obtain ⟨m, hm, rfl⟩ := List.mem_map.1 hl
        rw [Text.unbroken_append]
        exact ⟨by decide, (h.2 st hst).unbroken m hm⟩

theorem unbroken_render {ps : List Piece} (h : ∀ p ∈ ps, p.Fit) :
    ∀ l ∈ ps.flatMap Piece.render, Unbroken l := by
  intro l hl
  obtain ⟨p, hp, hl⟩ := List.mem_flatMap.1 hl
  exact (h p hp).unbroken l hl

-- ======================================================== one empty line

/-- When no name stands for anything, something is written for a piece at
once, and it is an empty line only for an empty line. -/
theorem Stage.exists_line_of_step {plan : Plan} {s : Stage}
    (hnoticed : s.progress.Noticed plan) (hbound : s.progress.bound = [])
    (haliases : s.names.aliases = []) {x : Piece} (hx : x.ResolvesIn s.names) :
    ∃ l out, (s.step plan x).1 = .line l :: out ∧ (l = [] → x = .line []) := by
  cases x with
  | context c =>
      unfold Piece.ResolvesIn at hx
      rw [haliases] at hx
      cases hx
  | line l =>
      rcases Piece.cases_line l
        with ⟨c, hc⟩ | ⟨name, table, hd⟩ | ⟨hcreation, hdeclaration⟩
      · rw [step_creation hc]
        refine ⟨_, _, rfl, ?_⟩
        intro hnil
        have hparts := List.append_eq_nil_iff.1 hnil
        cases (List.append_eq_nil_iff.1 hparts.1).2
      -- nothing is bound yet, so the declaration is written
      · have hnew : ¬(name = tableAlias table
            ∧ s.progress.bound.lookup name = some table) := by
          rw [hbound]
          rintro ⟨-, hlookup⟩
          cases hlookup
        rw [step_declaration hnoticed hd hnew]
        refine ⟨_, _, rfl, ?_⟩
        intro hnil
        have hread := declaration?_trimEnd hd
        rw [hnil, tokens_nil] at hread
        cases hread
      · rw [step_line hnoticed hcreation hdeclaration]
        exact ⟨_, _, rfl, fun hnil => by rw [hnil]⟩

/-- Without names, nothing is written for nothing only. -/
theorem Stage.eq_nil_of_run {plan : Plan} {s : Stage}
    (hnoticed : s.progress.Noticed plan) (hbound : s.progress.bound = [])
    (haliases : s.names.aliases = []) {ps : List Piece}
    (hps : Resolved s.names ps) (h : (s.run plan ps).1 = []) : ps = [] := by
  cases ps with
  | nil => rfl
  | cons x ps =>
      obtain ⟨l, out, hwritten, -⟩ :=
        exists_line_of_step hnoticed hbound haliases hps.1
      rw [run_cons, hwritten] at h
      cases h

/-- The empty line is written as it stands and nothing more comes of it. -/
theorem Stage.step_empty {plan : Plan} {s : Stage}
    (hnoticed : s.progress.Noticed plan) :
    s.step plan (.line []) = ([.line []], s) := by
  have hcreation : creation? (tokens []) = none := by rw [tokens_nil]; rfl
  have hdeclaration : declaration? (tokens []) = none := by
    rw [tokens_nil]; rfl
  have hmention : mention? s.names.aliases (tokens []) = none := by
    rw [tokens_nil]; rfl
  have htarget : marginTarget? [] = none := by
    unfold marginTarget? assignment?
    rw [tokens_nil]
    rfl
  rw [step_line hnoticed hcreation hdeclaration, hmention]
  unfold Progress.afterLine Names.afterLine
  rw [htarget]
  rfl

/-- One line is joined from one line. -/
theorem eq_of_joinPieces_line {ps : List Piece} {l : Text}
    (h : joinPieces ps = [.line l]) :
    ps = [.line l] := by
  cases ps with
  | nil => cases h
  | cons p ps =>
      cases p with
      | line m =>
          rw [joinPieces_line] at h
          injection h with hfirst hrest
          cases ps with
          | nil => rw [hfirst]
          | cons q ps =>
              cases q with
              | line m => cases hrest
              | context c =>
                  rw [joinPieces_context] at hrest
                  match hjoined : joinPieces ps with
                  | [] => rw [hjoined] at hrest; cases hrest
                  | .line m :: rest => rw [hjoined] at hrest; cases hrest
                  | .context d :: rest =>
                      rw [hjoined, consContext] at hrest
                      split at hrest <;> cases hrest
      | context c =>
          -- what begins with a context begins with one when joined
          rw [joinPieces_context] at h
          match hjoined : joinPieces ps with
          | [] => rw [hjoined] at h; cases h
          | .line m :: rest => rw [hjoined] at h; cases h
          | .context d :: rest =>
              rw [hjoined, consContext] at h
              split at h <;> cases h

/-- One empty line is the normal form of itself only. -/
theorem eq_of_normalPieces_blank {ps : List Piece} (h : Resolved .none ps)
    (hblank : normalPieces ps = [.line []]) : ps = [.line []] := by
  rw [normalPieces_eq] at hblank
  have hrun := eq_of_joinPieces_line hblank
  cases ps with
  | nil => cases hrun
  | cons x ps =>
      obtain ⟨l, out, hwritten, hempty⟩ :=
        Stage.exists_line_of_step (Stage.noticed_start (planOf (x :: ps)))
          rfl rfl h.1
      rw [Stage.run_cons, hwritten] at hrun
      injection hrun with hline hrest
      injection hline with hl
      have hx := hempty hl
      subst hx
      -- the empty line wrote nothing else, and so did the rest
      have hstep :=
        Stage.step_empty (Stage.noticed_start (planOf (.line [] :: ps)))
      rw [hstep] at hrest
      have hresolved : Resolved .none ps := by
        have hnames := congrArg (fun r => r.2.names) hstep
        exact (show (blockOf Names.none (Piece.line []).chunk).2
          = .none from hnames) ▸ h.2
      have hnone :=
        Stage.eq_nil_of_run (Stage.noticed_start _) rfl rfl hresolved
        (List.append_eq_nil_iff.1 hrest).2
      rw [hnone]

/-- Pieces that are written as one empty line are one. -/
theorem eq_of_render_blank {ps : List Piece}
    (h : ps.flatMap Piece.render = [[]]) :
    ps = [.line []] := by
  have hmore : ∀ qs : List Piece, qs.flatMap Piece.render = [] → qs = [] := by
    intro qs hqs
    cases qs with
    | nil => rfl
    | cons q qs => cases q <;> cases hqs
  cases ps with
  | nil => cases h
  | cons p ps =>
      cases p with
      | line l =>
          rw [List.flatMap_cons, Piece.render, List.singleton_append] at h
          injection h with hl hrest
          rw [hl, hmore ps hrest]
      | context c =>
          rw [List.flatMap_cons, Piece.render, List.cons_append] at h
          injection h with hheader hrest
          have hvisible := allBlank_headerLine c.table c.region
          rw [hheader] at hvisible
          cases hvisible

-- ================================================================= logs

/-- A log of pieces that is not empty is normalized as pieces. -/
theorem normalize_render {ps : List Piece} (h : ∀ p ∈ ps, p.Fit)
    (hne : ¬(ps.flatMap Piece.render = [] ∨ ps.flatMap Piece.render = [[]])) :
    normalize (ps.flatMap Piece.render)
      = (normalPieces ps).flatMap Piece.render := by
  unfold normalize
  rw [flatLines_of_unbroken (unbroken_render h)]
  simp only [hne, if_false]
  exact normalLines_render h

/-- A log of nothing or of one empty line is normalized to nothing. -/
theorem normalize_empty {ps : List Piece} (h : ∀ p ∈ ps, p.Fit)
    (hempty : ps.flatMap Piece.render = [] ∨ ps.flatMap Piece.render = [[]]) :
    normalize (ps.flatMap Piece.render) = [] := by
  unfold normalize
  rw [flatLines_of_unbroken (unbroken_render h)]
  simp only [hempty, if_true]

theorem unbroken_normalize {ps : List Piece} (hfit : ∀ p ∈ ps, p.Fit)
    (h : Resolved .none ps) :
    ∀ l ∈ normalize (ps.flatMap Piece.render), Unbroken l := by
  by_cases hempty : ps.flatMap Piece.render = []
    ∨ ps.flatMap Piece.render = [[]]
  · rw [normalize_empty hfit hempty]
    exact fun l hl => by cases hl
  · rw [normalize_render hfit hempty]
    exact unbroken_render (fit_normalPieces hfit h)

/-- The normal form of a log of fit and resolved pieces is its own normal
form. -/
theorem normalize_normalize_render {ps : List Piece} (hfit : ∀ p ∈ ps, p.Fit)
    (h : Resolved .none ps) :
    normalize (normalize (ps.flatMap Piece.render))
      = normalize (ps.flatMap Piece.render) := by
  by_cases hempty : ps.flatMap Piece.render = []
    ∨ ps.flatMap Piece.render = [[]]
  · rw [normalize_empty hfit hempty]
    rfl
  · rw [normalize_render hfit hempty]
    by_cases hnormal : (normalPieces ps).flatMap Piece.render = []
        ∨ (normalPieces ps).flatMap Piece.render = [[]]
    · rcases hnormal with hnil | hblank
      · rw [hnil]
        rfl
      · have hps := eq_of_normalPieces_blank h (eq_of_render_blank hblank)
        rw [hps] at hempty
        exact absurd (Or.inr rfl) hempty
    · rw [normalize_render (fit_normalPieces hfit h) hnormal,
        normalPieces_normalPieces h]

end GridScript.Script
