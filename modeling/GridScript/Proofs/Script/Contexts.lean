/-
The contexts of a script, told from its lines, and what becomes of them
when the declarations of local names are dropped.

# Reading line by line

Which contexts are found is told from the lines one by one
(`contextsIn_eq`): each header opens one, its table is told from what the
lines above give away, and its statements from the lines below. The lines
of a body need not be told from others, for they open nothing and give
nothing away.

# Dropping lines

A declaration is no part of any body, so dropping it changes a context in
two ways only: a name may stand for another table without it, and a body
that ended in front of it may go on behind it (`contextsFrom_keptLines`).
-/
import GridScript.Proofs.Script.Naming
import GridScript.Script.Parts

namespace GridScript.Script

open Text (allBlank isBlank trimEnd)

-- ============================================================== bodies

/-- A line that can stand in a body. -/
def Inner (l : Text) : Prop := allBlank l = true ∨ 0 < indentWidth l

theorem Inner.given? {l : Text} (h : Inner l) : given? l = none :=
  h.elim given?_of_allBlank given?_of_indented

/-- It opens none. -/
theorem Inner.header? {l : Text} (h : Inner l) :
    header? (tokens l) = none := by
  cases l with
  | nil => rw [tokens_nil]; rfl
  | cons c t =>
      have hblank : isBlank c = true := by
        rcases h with h | h
        · rw [Text.allBlank_cons, Bool.and_eq_true] at h
          exact h.1
        · cases hc : isBlank c with
          | true => rfl
          | false =>
              rw [indentWidth_cons_of_not_blank hc] at h
              cases h
      rw [tokens_mark (isQuote_of_isBlank hblank)
        (isWordStart_of_isBlank hblank)]
      rfl

/-- A body has lines exactly if the first one that is not blank is
indented. -/
theorem cutBody_eq_nil_iff (ls : List Text) :
    (cutBody ls).1 = [] ↔ resumes ls = false := by
  induction ls with
  | nil => exact ⟨fun _ => rfl, fun _ => rfl⟩
  | cons l ls ih =>
      rw [resumes_cons, cutBody]
      cases hblank : allBlank l with
      | true =>
          cases hresumes : resumes ls with
          | true => simp [ih, hresumes]
          | false => simp
      | false =>
          by_cases hwidth : indentWidth l = 0
          · simp [hwidth]
          · simp [hwidth, Nat.pos_of_ne_zero hwidth]

/-- A line of a body behind its first one, as it stands in a statement. -/
def againstMargin (margin : Nat) (l : Text) : Text :=
  if margin < indentWidth l then trimEnd (l.drop margin) else Text.trim l

/-- Every line of a body is in one of its statements, and they keep their
order. -/
theorem lines_cutNested (margin : Nat) (ls : List Text) :
    (cutNested margin ls).1 ++ (cutNested margin ls).2.flatMap Statement.lines
      = ls.map (againstMargin margin) := by
  induction ls with
  | nil => rfl
  | cons l ls ih =>
      rw [cutNested, List.map_cons, ← ih, againstMargin]
      generalize cutNested margin ls = cut
      obtain ⟨nested, statements⟩ := cut
      dsimp only
      split
      case isTrue => rfl
      case isFalse => rfl

/-- The first line of a body sets the margin for all others. -/
theorem lines_statementsOf (l : Text) (ls : List Text) :
    (statementsOf (l :: ls)).flatMap Statement.lines
      = trimEnd (l.drop (indentWidth l))
        :: ls.map (againstMargin (indentWidth l)) := by
  rw [← lines_cutNested]
  rfl

theorem length_statementsOf (ls : List Text) :
    ((statementsOf ls).flatMap Statement.lines).length = ls.length := by
  cases ls with
  | nil => rfl
  | cons l ls =>
      rw [lines_statementsOf, List.length_cons, List.length_map,
        List.length_cons]

/-- More lines make other statements. -/
theorem statementsOf_append_eq_iff {body more : List Text} :
    statementsOf (body ++ more) = statementsOf body ↔ more = [] := by
  constructor
  · intro h
    have hlength := congrArg (fun ss => (ss.flatMap Statement.lines).length) h
    simp only [length_statementsOf, List.length_append] at hlength
    exact List.length_eq_zero_iff.1 (by omega)
  · rintro rfl
    rw [List.append_nil]

-- ============================================================ contexts

/-- A context as it is found: its table, its region and its statements. -/
abbrev Found := Text × Region × List Statement

def Block.found? : Block → Option Found
  | context table region statements => some (table, region, statements)
  | _ => none

/-- The contexts that are found in lines. -/
def contextsIn (ls : List Text) : List Found :=
  (parseBlocks ls).1.filterMap Block.found?

/-- The table that a header names behind givings. -/
def HeaderTable.told (gs : List Giving) : HeaderTable → Text
  | id table => table
  | name n => (named? gs n).getD n

/-- The contexts that lines open, behind givings. -/
def contextsFrom (gs : List Giving) : List Text → List Found
  | [] => []
  | l :: ls =>
    match Script.header? (tokens l) with
    | some h =>
        (h.table.told gs, h.region, (takeBody ls).1) :: contextsFrom gs ls
    | none => contextsFrom (gs ++ (Script.given? l).toList) ls

theorem contextsFrom_header {l : Text} {h : Header}
    (hl : Script.header? (tokens l) = some h) (gs : List Giving)
    (ls : List Text) :
    contextsFrom gs (l :: ls)
      = (h.table.told gs, h.region, (takeBody ls).1)
        :: contextsFrom gs ls := by
  rw [contextsFrom, hl]

theorem contextsFrom_line {l : Text} (hl : Script.header? (tokens l) = none)
    (gs : List Giving) (ls : List Text) :
    contextsFrom gs (l :: ls)
      = contextsFrom (gs ++ (Script.given? l).toList) ls := by
  rw [contextsFrom, hl]

theorem contextsFrom_inner {l : Text} (hl : Inner l) (gs : List Giving)
    (ls : List Text) :
    contextsFrom gs (l :: ls) = contextsFrom gs ls := by
  rw [contextsFrom_line hl.header?, hl.given?, Option.toList_none,
    List.append_nil]

/-- Nothing is opened or given away in a body. -/
theorem contextsFrom_cutBody (gs : List Giving) (ls : List Text) :
    contextsFrom gs (cutBody ls).2 = contextsFrom gs ls := by
  fun_induction cutBody ls with
  | case1 => rfl
  | case2 l ls hblank _ ih => rw [ih, contextsFrom_inner (Or.inl hblank)]
  | case3 => rfl
  | case4 => rfl
  | case5 l ls hblank hwidth body rest heq ih =>
      rw [heq] at ih
      rw [contextsFrom_inner (Or.inr (Nat.pos_of_ne_zero hwidth))]
      exact ih

theorem resolve_told {n : Names} {gs : List Giving}
    (h : ∀ name, n.aliases.lookup name = named? gs name)
    (table : HeaderTable) :
    (resolve n table).1 = table.told gs := by
  cases table with
  | id table => rfl
  | name given =>
      rw [resolve, HeaderTable.told, ← h]
      cases n.aliases.lookup given <;> rfl

/-- The contexts of chunks are those of their lines. -/
theorem found_blocksOf {n : Names} {gs : List Giving}
    (h : ∀ name, n.aliases.lookup name = named? gs name) (ls : List Text) :
    (blocksOf n (chunks ls)).1.filterMap Block.found?
      = contextsFrom gs ls := by
  fun_induction chunks ls generalizing n gs with
  | case1 => rfl
  | case2 l ls header hheader ih =>
      have hnames : ∀ name,
          (resolve n header.table).2.aliases.lookup name = named? gs name := by
        intro name
        rw [aliases_resolve, h]
      have hbody : contextsFrom gs (takeBody ls).2 = contextsFrom gs ls :=
        contextsFrom_cutBody gs ls
      rw [blocksOf_cons, blockOf_header, contextsFrom_header hheader,
        resolve_told h, ← hbody, ← ih hnames]
      rfl
  | case3 l ls hheader ih =>
      have hnames : ∀ name, (blockOf n (.line l)).2.aliases.lookup name
          = named? (gs ++ (Script.given? l).toList) name := by
        intro name
        rw [aliases_blockOf, named?_append, h]
        rfl
      have hnone : (blockOf n (.line l)).1.found? = none := by
        show (blockOf n (Piece.line l).chunk).1.found? = none
        rcases Piece.cases_line l
          with ⟨c, hc⟩ | ⟨name, table, hd⟩ | ⟨hcreation, hdeclaration⟩
        · rw [blockOf_creation hc]
          rfl
        · rw [blockOf_declaration hd]
          rfl
        · rw [blockOf_line hcreation hdeclaration]
          rfl
      rw [blocksOf_cons, List.filterMap_cons, hnone, contextsFrom_line hheader]
      exact ih hnames

theorem contextsIn_eq (ls : List Text) : contextsIn ls = contextsFrom [] ls :=
  found_blocksOf (fun _ => rfl) ls

-- ======================================================= without declarations

/-- The lines that are left of pieces without those that declare names. -/
def keptLines (ps : List Text) : List Text :=
  (ps.filter fun p => !isDeclarationPiece p).map Text.unterminated

theorem keptLines_dropped {p : Text} (h : isDeclarationPiece p = true)
    (ps : List Text) :
    keptLines (p :: ps) = keptLines ps := by
  unfold keptLines
  rw [List.filter_cons_of_neg (by simp [h])]

theorem keptLines_kept {p : Text} (h : isDeclarationPiece p = false)
    (ps : List Text) :
    keptLines (p :: ps) = Text.unterminated p :: keptLines ps := by
  unfold keptLines
  rw [List.filter_cons_of_pos (by simp [h]), List.map_cons]

/-- A piece without the line breaks at its end. -/
def unbrokenEnd (p : Text) : Text :=
  (p.reverse.dropWhile fun c => c == '\n' || c == '\r').reverse

theorem unbrokenEnd_snoc {c : Char} (h : c = '\n' ∨ c = '\r') (t : Text) :
    unbrokenEnd (t ++ [c]) = unbrokenEnd t := by
  unfold unbrokenEnd
  rw [List.reverse_append, List.reverse_singleton, List.singleton_append,
    List.dropWhile_cons_of_pos (by simpa using h)]

theorem unbrokenEnd_dropLast {c : Char} (h : c = '\n' ∨ c = '\r') (t : Text) :
    unbrokenEnd (Text.dropLast c t) = unbrokenEnd t := by
  unfold Text.dropLast Text.beforeLast?
  split
  case isFalse => rfl
  case isTrue hlast =>
      obtain ⟨t, rfl⟩ := List.getLast?_eq_some_iff.1 hlast
      rw [List.dropLast_concat, Option.getD_some, unbrokenEnd_snoc h]

/-- A line is its piece up to line breaks at the end. -/
theorem exists_unterminated (p : Text) :
    ∃ s, allBlank s = true ∧ Text.unterminated p = unbrokenEnd p ++ s := by
  have hend : ∀ t : Text, ∃ s, allBlank s = true ∧ t = unbrokenEnd t ++ s := by
    intro t
    refine ⟨(t.reverse.takeWhile fun c => c == '\n' || c == '\r').reverse, ?_,
      ?_⟩
    · rw [Text.allBlank_iff]
      intro c hc
      have hbreak :=
        List.all_eq_true.1 List.all_takeWhile c (List.mem_reverse.1 hc)
      simp only [Bool.or_eq_true, beq_iff_eq] at hbreak
      rcases hbreak with rfl | rfl <;> decide
    · unfold unbrokenEnd
      rw [← List.reverse_append, List.takeWhile_append_dropWhile,
        List.reverse_reverse]
  -- to cut the end of the line off first changes nothing
  have hsame : unbrokenEnd (Text.unterminated p) = unbrokenEnd p := by
    have hfeed := unbrokenEnd_dropLast (Or.inl rfl) p
    unfold Text.unterminated
    unfold Text.dropLast at hfeed
    cases hbefore : Text.beforeLast? '\n' p with
    | none => rfl
    | some content =>
        rw [hbefore, Option.getD_some] at hfeed
        exact (unbrokenEnd_dropLast (Or.inr rfl) content).trans hfeed
  obtain ⟨s, hs, hline⟩ := hend (Text.unterminated p)
  exact ⟨s, hs, hsame ▸ hline⟩

/-- A line that is dropped stands at the margin, and opens nothing. -/
theorem margin_of_isDeclarationPiece {p : Text}
    (h : isDeclarationPiece p = true) :
    Script.header? (tokens (Text.unterminated p)) = none
      ∧ ¬Inner (Text.unterminated p) := by
  obtain ⟨s, hs, hline⟩ := exists_unterminated p
  have hsome : (declaration? (tokens (unbrokenEnd p))).isSome = true := h
  obtain ⟨found, hdeclaration⟩ := Option.isSome_iff_exists.1 hsome
  unfold declaration? at hdeclaration
  obtain ⟨⟨name, rest⟩, hbinding, -⟩ := Option.bind_eq_some_iff.1 hdeclaration
  obtain ⟨ts₁, ts₂, htokens, -⟩ := exists_word_of_eatBinding? hbinding
  have htrailed : Trailed (tokens (unbrokenEnd p))
      (tokens (Text.unterminated p)) :=
    ⟨s, hs, by rw [hline, tokens_append_blank _ hs]⟩
  obtain ⟨rest', hbinding'⟩ := htrailed.exists_eatBinding? hbinding
  refine ⟨header?_of_eatBinding? hbinding', ?_⟩
  obtain ⟨c, t, hhead, hc⟩ := exists_head_of_tokens htokens
  rw [hline, hhead, List.cons_append]
  rintro (hblank | hindented)
  · rw [Text.allBlank_cons, hc] at hblank
    cases hblank
  · rw [indentWidth_cons_of_not_blank hc] at hindented
    cases hindented

-- =================================================== bodies that go on

theorem kept_of_inner {p : Text} (h : Inner (Text.unterminated p)) :
    isDeclarationPiece p = false := by
  cases hp : isDeclarationPiece p with
  | false => rfl
  | true => exact absurd h (margin_of_isDeclarationPiece hp).2

/-- Lines that go on with a body do so without declarations. -/
theorem resumes_keptLines {ps : List Text}
    (h : resumes (ps.map Text.unterminated) = true) :
    resumes (keptLines ps) = true := by
  induction ps with
  | nil => cases h
  | cons p ps ih =>
      rw [List.map_cons, resumes_cons] at h
      cases hblank : allBlank (Text.unterminated p) with
      | true =>
          rw [hblank, if_pos rfl] at h
          rw [keptLines_kept (kept_of_inner (Or.inl hblank)), resumes_cons,
            hblank, if_pos rfl]
          exact ih h
      | false =>
          rw [hblank, if_neg (by decide)] at h
          rw [keptLines_kept (kept_of_inner (Or.inr (of_decide_eq_true h))),
            resumes_cons, hblank, if_neg (by decide)]
          exact h

/-- Without declarations a body is followed by what would go on with it
behind them. -/
theorem exists_cutBody_keptLines (ps : List Text) :
    ∃ body rest, ps = body ++ rest
      ∧ (cutBody (ps.map Text.unterminated)).2 = rest.map Text.unterminated
      ∧ (cutBody (keptLines ps)).1
        = (cutBody (ps.map Text.unterminated)).1
          ++ (cutBody (keptLines rest)).1 := by
  -- no line of the body is dropped, so the induction follows `cutBody` on the
  -- whole lines and keeps what stands below the body as it is
  induction ps with
  | nil => exact ⟨[], [], rfl, rfl, rfl⟩
  | cons p ps ih =>
      obtain ⟨body, rest, hps, hbelow, hkept⟩ := ih
      rw [List.map_cons, cutBody]
      cases hblank : allBlank (Text.unterminated p) with
      | true =>
          -- a blank line is of the body if the body goes on behind it
          cases hresumes : resumes (ps.map Text.unterminated) with
          | false => exact ⟨[], p :: ps, rfl, rfl, rfl⟩
          | true =>
              refine ⟨p :: body, rest, by rw [hps]; rfl, hbelow, ?_⟩
              rw [keptLines_kept (kept_of_inner (Or.inl hblank)),
                cutBody, hblank, resumes_keptLines hresumes]
              exact hkept
      | false =>
          by_cases hwidth : indentWidth (Text.unterminated p) = 0
          · rw [if_neg (by decide), if_pos hwidth]
            exact ⟨[], p :: ps, rfl, rfl, rfl⟩
          -- an indented line is of the body
          · refine ⟨p :: body, rest, by rw [hps]; rfl, ?_, ?_⟩
            · simp only [hwidth, Bool.false_eq_true, if_false]
              exact hbelow
            · rw [keptLines_kept
                (kept_of_inner (Or.inr (Nat.pos_of_ne_zero hwidth))),
                  cutBody, hblank]
              simp only [hwidth, Bool.false_eq_true, if_false, hkept,
                List.cons_append]

/-- Below the header in front of these pieces, no indented line comes up
behind the body once the declarations are gone. -/
def StaysClosed (ps : List Text) : Prop :=
  ∀ body rest, ps = body ++ rest →
    (takeBody (ps.map Text.unterminated)).2 = rest.map Text.unterminated →
    resumes (keptLines rest) = false

/-- A body stays as it is exactly if nothing comes up behind it. -/
theorem takeBody_keptLines_iff (ps : List Text) :
    (takeBody (keptLines ps)).1 = (takeBody (ps.map Text.unterminated)).1
      ↔ StaysClosed ps := by
  obtain ⟨body, rest, hps, hbelow, hkept⟩ := exists_cutBody_keptLines ps
  have hwhole : (takeBody (keptLines ps)).1
      = (takeBody (ps.map Text.unterminated)).1
      ↔ resumes (keptLines rest) = false := by
    show statementsOf (cutBody (keptLines ps)).1 = statementsOf _ ↔ _
    rw [hkept, statementsOf_append_eq_iff, cutBody_eq_nil_iff]
  rw [hwhole]
  constructor
  · intro hclosed body' rest' hps' hbelow'
    have hlength : rest.length = rest'.length := by
      have hsame := congrArg List.length (hbelow.symm.trans hbelow')
      rwa [List.length_map, List.length_map] at hsame
    obtain ⟨-, hrest⟩ := List.append_inj' (hps.symm.trans hps') hlength
    rw [← hrest]
    exact hclosed
  · exact fun hclosed => hclosed body rest hps hbelow

-- ================================================= contexts that stay

/-- What is said of every place in a list is said of the first and of
those behind it. -/
theorem forall_split_cons {α : Type} {P : List α → α → List α → Prop} {a : α}
    {as : List α} :
    (∀ before x after, a :: as = before ++ x :: after → P before x after)
      ↔ P [] a as ∧ ∀ before x after, as = before ++ x :: after →
        P (a :: before) x after := by
  constructor
  · intro h
    exact ⟨h [] a as rfl,
      fun before x after has => h (a :: before) x after (by rw [has]; rfl)⟩
  · rintro ⟨hfirst, hrest⟩ before x after has
    cases before with
    | nil =>
        injection has with ha has
        exact ha ▸ has ▸ hfirst
    | cons b before =>
        injection has with ha has
        exact ha ▸ hrest before x after has

/-- The pieces' contexts stay what they are without declarations exactly if
each header's name goes on standing for its table and no body goes on. -/
theorem contextsFrom_keptLines (gs gs' : List Giving) (ps : List Text) :
    contextsFrom gs' (keptLines ps)
      = contextsFrom gs (ps.map Text.unterminated)
      ↔ ∀ before p after, ps = before ++ p :: after →
        ∀ h, Script.header? (tokens (Text.unterminated p)) = some h →
          h.table.told (gs' ++ givings (keptLines before))
              = h.table.told (gs ++ givings (before.map Text.unterminated))
            ∧ StaysClosed after := by
  have hgivings : ∀ (gs : List Giving) (l : Text) (ls : List Text),
      gs ++ givings (l :: ls)
        = (gs ++ (Script.given? l).toList) ++ givings ls := by
    intro gs l ls
    rw [givings_cons, List.append_assoc]
  -- the givings differ as soon as a declaration is dropped, so both are
  -- carried along
  induction ps generalizing gs gs' with
  | nil =>
      refine ⟨fun _ before p after hps => ?_, fun _ => rfl⟩
      cases before <;> cases hps
  | cons p ps ih =>
      rw [forall_split_cons, List.map_cons]
      cases hheader : Script.header? (tokens (Text.unterminated p)) with
      | some h =>
          -- a header is no declaration, so it is kept
          have hkept : isDeclarationPiece p = false := by
            cases hp : isDeclarationPiece p with
            | false => rfl
            | true =>
                rw [(margin_of_isDeclarationPiece hp).1] at hheader
                cases hheader
          have hquiet := given?_of_header? hheader
          rw [keptLines_kept hkept, contextsFrom_header hheader,
            contextsFrom_header hheader, List.cons.injEq, Prod.mk.injEq,
            Prod.mk.injEq, takeBody_keptLines_iff]
          refine (and_congr_right' (ih gs gs')).trans ?_
          simp only [keptLines_kept hkept, List.map_cons, hgivings, hquiet,
            Option.toList_none, List.append_nil, Option.some.injEq, forall_eq',
            true_and]
          show _ ↔ (h.table.told (gs' ++ []) = h.table.told (gs ++ []) ∧ _) ∧ _
          rw [List.append_nil, List.append_nil]
      | none =>
          have hfirst : ∀ h : Header, none = some h →
              h.table.told (gs' ++ givings (keptLines []))
                  = h.table.told
                    (gs ++ givings (List.map Text.unterminated []))
                ∧ StaysClosed ps := fun h hnone => by cases hnone
          rw [contextsFrom_line hheader, and_iff_right hfirst]
          cases hp : isDeclarationPiece p with
          | true =>
              -- a declaration is dropped, with what it gives
              rw [keptLines_dropped hp]
              refine (ih _ gs').trans ?_
              simp only [keptLines_dropped hp, List.map_cons, hgivings]
          | false =>
              -- any other line is kept, and gives the same in both
              rw [keptLines_kept hp, contextsFrom_line hheader]
              refine (ih _ _).trans ?_
              simp only [keptLines_kept hp, List.map_cons, hgivings]

end GridScript.Script
