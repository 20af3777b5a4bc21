/-
Lines that were neighbours. Between two plain lines that stand one under the
other in a script, the normal form puts the literals of at most one table:
of the one that the first line mentions, if that is where its literals
belong (`Due`). Otherwise the two stay neighbours (`neighbours_parted_iff`).

How far the second line is indented is not asked. A loop or a condition with
a table in the middle of its body is parted there too, and what is left of
the body is read as a part of the context above it the next time.
-/
import GridScript.Proofs.Script.Placement

namespace GridScript.Script

variable {plan : Plan} {p : Progress}

-- ========================================================= lines of blocks

/-- Lines that are chunks by themselves, next to each other, are lines of the
script next to each other. -/
theorem exists_lines_of_chunks {ls : List Text} {cs ds : List Chunk}
    {a c : Text} (h : chunks ls = cs ++ .line a :: .line c :: ds) :
    ∃ above below, ls = above ++ a :: c :: below := by
  fun_induction chunks ls generalizing cs with
  | case1 => cases cs <;> cases h
  | case2 l ls header hheader ih =>
      cases cs with
      | nil => cases h
      | cons first cs =>
          injection h with _ h
          obtain ⟨above, below, hrest⟩ := ih h
          -- below a header, the neighbours stand below its body
          obtain ⟨body, hbody⟩ := suffix_cutBody ls
          refine ⟨l :: (body ++ above), below, ?_⟩
          rw [List.cons_append, List.append_assoc, ← hrest]
          exact congrArg (l :: ·) hbody.symm
  | case3 l ls hheader ih =>
      cases cs with
      | nil =>
          injection h with hline h
          injection hline with hl
          subst hl
          cases ls with
          | nil => rw [chunks] at h; cases h
          | cons m ls =>
              rw [chunks] at h
              split at h
              · cases h
              · injection h with hline h
                injection hline with hm
                exact ⟨[], ls, by rw [hm, List.nil_append]⟩
      | cons first cs =>
          injection h with _ h
          obtain ⟨above, below, rfl⟩ := ih h
          exact ⟨l :: above, below, rfl⟩

theorem blocksOf_eq_append {n : Names} {cs : List Chunk}
    {before after : List Block} (h : (blocksOf n cs).1 = before ++ after) :
    ∃ cs₁ cs₂ m, cs = cs₁ ++ cs₂ ∧ (blocksOf m cs₂).1 = after := by
  induction before generalizing n cs with
  | nil => exact ⟨[], cs, n, rfl, h⟩
  | cons b before ih =>
      cases cs with
      | nil => cases h
      | cons c cs =>
          rw [blocksOf_cons] at h
          injection h with _ h
          obtain ⟨cs₁, cs₂, m, rfl, hafter⟩ := ih h
          exact ⟨c :: cs₁, cs₂, m, rfl, hafter⟩

/-- A plain line comes from a line by itself. -/
theorem chunk_of_line {n : Names} {c : Chunk} {l : Text} {t : Option Text}
    (h : (blockOf n c).1 = .line l t) : c = .line l := by
  cases c with
  | context header body => cases h
  | line m =>
      change (blockOf n (Piece.line m).chunk).1 = .line l t at h
      rcases Piece.cases_line m
        with ⟨c, hc⟩ | ⟨name, table, hd⟩ | ⟨hcreation, hdeclaration⟩
      · rw [blockOf_creation hc] at h
        cases h
      · rw [blockOf_declaration hd] at h
        cases h
      · rw [blockOf_line hcreation hdeclaration] at h
        injection h with hl _
        rw [hl]

theorem exists_lines_of_blocks {ls : List Text} {before after : List Block}
    {a c : Text} {s t : Option Text}
    (h : (parseBlocks ls).1 = before ++ .line a s :: .line c t :: after) :
    ∃ above below, ls = above ++ a :: c :: below := by
  obtain ⟨cs₁, cs₂, m, hchunks, hafter⟩ := blocksOf_eq_append h
  match cs₂ with
  | [] => cases hafter
  | [first] => exact nomatch (List.cons.inj hafter).2
  | first :: second :: ds =>
      rw [blocksOf_cons, blocksOf_cons] at hafter
      obtain ⟨hfirst, hafter⟩ := List.cons.inj hafter
      obtain ⟨hsecond, -⟩ := List.cons.inj hafter
      rw [chunk_of_line hfirst, chunk_of_line hsecond] at hchunks
      exact exists_lines_of_chunks hchunks

-- ======================================================= between two lines

/-- Do the literals of the table belong behind the block that comes next? -/
def Due (blocks before : List Block) (table : Text) : Prop :=
  dataOf blocks table ≠ [] ∧ (∀ b ∈ blocks, b.created? ≠ some table)
    ∧ ∀ b ∈ before, b.reference? ≠ some table

instance (blocks before : List Block) (table : Text) :
    Decidable (Due blocks before table) :=
  inferInstanceAs (Decidable (_ ∧ _ ∧ _))

section

variable {blocks before : List Block} {table : Text}

theorem Due.not_created (h : Due blocks before table) (bindable : List Text) :
    table ∉ (planFor blocks bindable).created := by
  intro hcreated
  obtain ⟨b, hb, hcreates⟩ := mem_created_planFor.1 hcreated
  exact h.2.1 b hb hcreates

/-- No block in front is a place for literals that are due. -/
theorem Due.first (h : Due blocks before table) (hbefore : before ⊆ blocks)
    (bindable : List Text) :
    ∀ b ∈ before,
      b.settles? (planFor blocks bindable).created ≠ some table := by
  intro b hb hsettles
  rcases settles?_eq_some_iff.1 hsettles with hcreates | ⟨hreference, -⟩
  · exact h.2.1 b (hbefore hb) hcreates
  · exact h.2.2 b hb hreference

/-- What is not due is settled or has no literals. -/
theorem settled_of_not_due (h : ¬Due blocks before table)
    (bindable : List Text) :
    (writeBlocks (planFor blocks bindable) .none
        (before.map Block.withoutData)).2.Settled
        (planFor blocks bindable) table
      ∨ (planFor blocks bindable).data table = [] := by
  by_cases hdata : dataOf blocks table = []
  · exact Or.inr hdata
  by_cases hcreated : ∃ b ∈ blocks, b.created? = some table
  · exact Or.inl (Or.inl (mem_created_planFor.2 hcreated))
  by_cases hbefore : ∃ b ∈ before, b.reference? = some table
  · obtain ⟨b, hb, hreference⟩ := hbefore
    rw [← Stage.reference?_withoutData] at hreference
    exact Or.inl
      (settled_writeBlocks (noticed_none _)
        (List.mem_map_of_mem hb) hreference)
  · exact absurd ⟨hdata, fun b hb hcreates => hcreated ⟨b, hb, hcreates⟩,
      fun b hb hreference => hbefore ⟨b, hb, hreference⟩⟩ h

end

/-- A line whose table is settled, or has no literals, is written alone. -/
theorem writeBlock_settled_line (h : p.Noticed plan) (l : Text)
    {table : Option Text}
    (hdone : ∀ t, table = some t → p.Settled plan t ∨ plan.data t = []) :
    (writeBlock plan p (.line l table)).1 = [.line l] := by
  rw [writeBlock_line h]
  cases table with
  | none => rfl
  | some t =>
      have hflushed : (p.afterLine l).flushed = p.flushed := by
        unfold Progress.afterLine
        split <;> rfl
      have hnothing : (settle plan (p.afterLine l) t).1 = [] := by
        rcases hdone t rfl with hsettled | hdata
        · rw [settle_of_settled
            (hsettled.imp_right fun hmem => hflushed ▸ hmem)]
        · exact (settle_of_nil hdata).1
      exact congrArg (_ :: ·) hnothing

/-- What is written between two plain lines that were neighbours. -/
theorem exists_gap {ls : List Text} {before after : List Block} {a c : Text}
    {s t : Option Text}
    (hsplit : (parseBlocks ls).1 = before ++ .line a s :: .line c t :: after) :
    ∃ gap behind, piecesOf (parseBlocks ls).1 (parseBlocks ls).2
        = lead (parseBlocks ls).1 (parseBlocks ls).2 before
          ++ .line a :: (gap ++ .line c :: behind)
      ∧ ((∀ table, s = some table → ¬Due (parseBlocks ls).1 before table) →
        gap = [])
      ∧ ∀ table, s = some table → Due (parseBlocks ls).1 before table →
          ∃ opening, Opening table opening
            ∧ gap
              = opening
                ++ [.context
                  (gatheredOn table (dataOf (parseBlocks ls).1 table))] := by
  obtain ⟨blocks, bindable, hparse⟩ : ∃ bs ts, parseBlocks ls = (bs, ts) :=
    ⟨_, _, rfl⟩
  rw [hparse] at hsplit ⊢
  simp only at hsplit ⊢
  have hnoticed := noticed_writeBlocks (noticed_none (planFor blocks bindable))
    (before.map Block.withoutData)
  have hgrounded := grounded_writeBlocks (noticed_none _)
    (grounded_none (planFor blocks bindable)) (before.map Block.withoutData)
  obtain ⟨q, hq, hwritten⟩ := @written_split _ _ bindable _ _ hsplit
  have hkept : ∀ l u, (Block.line l u).withoutData = .line l u :=
    fun _ _ => rfl
  rw [List.map_cons, writeBlocks_cons, hkept, hkept, writeBlock_line hq c t,
    List.cons_append] at hwritten
  have hplace : ∀ gap, joinPieces gap = gap →
      (writeBlock (planFor blocks bindable)
        (writeBlocks (planFor blocks bindable) .none
          (before.map Block.withoutData)).2
        (.line a s)).1 = .line a :: gap → ∃ behind, piecesOf blocks bindable
        = lead blocks bindable before
          ++ .line a :: (gap ++ .line c :: behind) := by
    intro gap hgap hline
    rw [piecesOf_eq, hwritten, hline, List.cons_append, joinPieces_append_line,
      joinPieces_append_line, hgap]
    exact ⟨_, rfl⟩
  by_cases hdue : ∃ table, s = some table ∧ Due blocks before table
  -- the first line refers to a table whose literals are due
  · obtain ⟨table, rfl, hdue⟩ := hdue
    have hbefore : before ⊆ blocks := hsplit ▸ List.subset_append_left before _
    have hsettles : (Block.line a (some table)).settles?
        (planFor blocks bindable).created = some table :=
      settles?_eq_some_iff.2 (Or.inr ⟨rfl, hdue.not_created bindable⟩)
    obtain ⟨opening, hopening, hblock⟩ :=
      writeBlock_settling hnoticed hgrounded hsettles
      (not_flushed_before (hdue.first hbefore bindable)) hdue.1
    rcases hblock with ⟨l, hl, hblock⟩ | ⟨region, statements, hcontext, -⟩
    · obtain rfl : a = l := Option.some.inj hl
      obtain ⟨behind, hpieces⟩ := hplace _ (hopening.joinPieces _) hblock
      refine ⟨_, behind, hpieces, fun hnot => absurd hdue (hnot table rfl), ?_⟩
      intro t ht _
      obtain rfl := Option.some.inj ht
      exact ⟨opening, hopening, rfl⟩
    · cases hcontext
  -- what the first line refers to is settled
  · have hdone := fun t (hs : s = some t) =>
      settled_of_not_due (fun hopen => hdue ⟨t, hs, hopen⟩) bindable
    obtain ⟨behind, hpieces⟩ :=
      hplace [] rfl (writeBlock_settled_line hnoticed a hdone)
    exact ⟨[], behind, hpieces, fun _ => rfl,
      fun table hs hopen => absurd ⟨table, hs, hopen⟩ hdue⟩

/-- Two plain lines that were neighbours stay so, or the literals of the table
that the first one mentions come to stand between them. -/
theorem neighbours_parted_iff {log : List Text} {before after : List Block}
    {a c : Text} {s t : Option Text}
    (hsplit : (parseBlocks (flatLines log)).1
      = before ++ .line a s :: .line c t :: after) :
    (∃ above below, flatLines log = above ++ a :: c :: below)
      ∧ ∃ gap behind, normalize log
          = (lead (parseBlocks (flatLines log)).1
              (parseBlocks (flatLines log)).2
              before).flatMap Piece.render ++ a :: (gap ++ c :: behind)
        ∧ (gap = [] ↔ ¬∃ table, s = some table
          ∧ Due (parseBlocks (flatLines log)).1 before table)
        ∧ ∀ table, s = some table →
            Due (parseBlocks (flatLines log)).1 before table →
            ∃ opening, Opening table opening
              ∧ gap = (opening ++ [Piece.context (gatheredOn table
                  (dataOf (parseBlocks (flatLines log)).1 table))]).flatMap
                    Piece.render := by
  have hlines := exists_lines_of_blocks hsplit
  refine ⟨hlines, ?_⟩
  have hfilled : ¬(flatLines log = [] ∨ flatLines log = [[]]) := by
    obtain ⟨above, below, hflat⟩ := hlines
    have htwo : 2 ≤ (flatLines log).length := by
      rw [hflat, List.length_append, List.length_cons, List.length_cons]
      omega
    rintro (hempty | hempty) <;> rw [hempty] at htwo
    · exact absurd htwo (by decide)
    · exact absurd htwo (by decide)
  obtain ⟨gap, behind, hpieces, hnone, hdue⟩ := exists_gap hsplit
  rw [normalize_eq, logPieces, if_neg hfilled, hpieces]
  refine ⟨gap.flatMap Piece.render, behind.flatMap Piece.render, ?_, ?_, ?_⟩
  · rw [List.flatMap_append, List.flatMap_cons, List.flatMap_append,
      List.flatMap_cons]
    rfl
  · constructor
    · rintro hgap ⟨table, hs, hopen⟩
      obtain ⟨opening, -, rfl⟩ := hdue table hs hopen
      rw [List.flatMap_append] at hgap
      cases (List.append_eq_nil_iff.1 hgap).2
    · intro hclosed
      rw [hnone fun table hs hopen => hclosed ⟨table, hs, hopen⟩]
      rfl
  · intro table hs hopen
    obtain ⟨opening, hopening, rfl⟩ := hdue table hs hopen
    exact ⟨opening, hopening, rfl⟩

/-- A loop that mentions a table in its body, and literals of the table. -/
def partedLoop : List Text :=
  ["for i in range(2):".toList, "    proj.table('x').resize(1, 1)".toList,
    "    foo()".toList, "with table_context('x'):".toList, "    a0 = 1".toList]

theorem neighbours_parted_iff_loop :
    (parseBlocks (flatLines partedLoop)).1
        = [.line "for i in range(2):".toList none]
          ++ .line "    proj.table('x').resize(1, 1)".toList (some "x".toList)
            :: .line "    foo()".toList none
            :: [.context "x".toList .body [⟨"a0 = 1".toList, []⟩]]
      ∧ ∃ gap behind, normalize partedLoop
          = (lead (parseBlocks (flatLines partedLoop)).1
              (parseBlocks (flatLines partedLoop)).2
              [.line "for i in range(2):".toList none]).flatMap Piece.render
            ++ "    proj.table('x').resize(1, 1)".toList
              :: (gap ++ "    foo()".toList :: behind)
        ∧ gap ≠ [] := by
  have hsplit : (parseBlocks (flatLines partedLoop)).1
      = [.line "for i in range(2):".toList none]
        ++ .line "    proj.table('x').resize(1, 1)".toList (some "x".toList)
          :: .line "    foo()".toList none
          :: [.context "x".toList .body [⟨"a0 = 1".toList, []⟩]] := by
            decide +kernel
  have hdue : Due (parseBlocks (flatLines partedLoop)).1
      [.line "for i in range(2):".toList none]
      "x".toList := by decide +kernel
  obtain ⟨-, gap, behind, hnormal, hgap, -⟩ := neighbours_parted_iff hsplit
  exact ⟨hsplit, gap, behind, hnormal, fun hnil => hgap.1 hnil ⟨_, rfl, hdue⟩⟩

end GridScript.Script
