/-
The plan for pieces, and the pieces of their normal form. Once the headers
of pieces are resolved, the plan can be read off the pieces: which tables
are created is told from the lines, which literals a table has from its
contexts, and every table that has a context may be bound.

No literal is left over at the end (`piecesOf_eq`): a table that the script
creates has its literals written there, and any other table with literals
has a context, which is a reference. What the last step of the writer does
is never needed.
-/
import GridScript.Proofs.Script.Writing

namespace GridScript.Script

-- ============================================================ definitions

/-- The statements of a table's body in a piece. -/
def Piece.body (table : Text) : Piece → List Statement
  | line _ => []
  | context c =>
      if c.table = table ∧ c.region = .body then c.statements else []

/-- The statements of a table's body in pieces. -/
def bodyIn (ps : List Piece) (table : Text) : List Statement :=
  ps.flatMap (Piece.body table)

/-- The literals of a table in pieces. -/
def dataIn (ps : List Piece) (table : Text) : List Statement :=
  (bodyIn ps table).filter Statement.isData

/-- The statements of a table's body in a block. -/
def Block.body (table : Text) : Block → List Statement
  | context t .body statements => if t = table then statements else []
  | _ => []

/-- The statements of a table's body in blocks, in the order of the
script. -/
def bodyOf (blocks : List Block) (table : Text) : List Statement :=
  blocks.flatMap (Block.body table)

/-- The table that a piece creates. -/
def Piece.created? : Piece → Option Text
  | line l => (creation? (tokens l)).map Creation.table
  | context _ => none

/-- The tables that pieces create. -/
def createdIn (ps : List Piece) : List Text := ps.filterMap Piece.created?

/-- The plan that pieces are written by. -/
def planOf (ps : List Piece) : Plan :=
  planFor (blocksOf .none (ps.map Piece.chunk)).1
    (blocksOf .none (ps.map Piece.chunk)).2.bindable

/-- The pieces of the normal form. -/
def normalPieces (ps : List Piece) : List Piece :=
  piecesOf (blocksOf .none (ps.map Piece.chunk)).1
    (blocksOf .none (ps.map Piece.chunk)).2.bindable

/-- Lines that are pieces have a normal form that is pieces. -/
theorem normalLines_render {ps : List Piece} (h : ∀ p ∈ ps, p.Fit) :
    normalLines (ps.flatMap Piece.render)
      = (normalPieces ps).flatMap Piece.render := by
  unfold normalLines normalPieces parseBlocks
  rw [chunks_render h]

-- =============================================================== the plan

/-- The table that a block creates. -/
def Block.created? : Block → Option Text
  | creation _ table _ => some table
  | _ => none

/-- Whether a piece creates a table is told without the names. -/
theorem created?_blockOf (n : Names) (p : Piece) :
    (blockOf n p.chunk).1.created? = p.created? := by
  cases p with
  | context c => rfl
  | line l =>
      show _ = (creation? (tokens l)).map Creation.table
      rcases Piece.cases_line l
        with ⟨c, h⟩ | ⟨name, table, h⟩ | ⟨hcreation, hdeclaration⟩
      · rw [blockOf_creation h, h]
        rfl
      · rw [blockOf_declaration h, creation?_of_declaration? h]
        rfl
      · rw [blockOf_line hcreation hdeclaration, hcreation]
        rfl

theorem created?_blocksOf (n : Names) (ps : List Piece) :
    (blocksOf n (ps.map Piece.chunk)).1.filterMap Block.created?
      = createdIn ps := by
  induction ps generalizing n with
  | nil => rfl
  | cons p ps ih =>
      have hrest := ih (blockOf n p.chunk).2
      unfold createdIn at hrest ⊢
      rw [List.map_cons, blocksOf, List.filterMap_cons, List.filterMap_cons]
      simp only [created?_blockOf, hrest]

theorem created_planOf (ps : List Piece) :
    (planOf ps).created = (createdIn ps).eraseDups := by
  rw [← created?_blocksOf .none ps]
  rfl

theorem mem_created_planOf {ps : List Piece} {table : Text} :
    table ∈ (planOf ps).created ↔ table ∈ createdIn ps := by
  rw [created_planOf, List.mem_eraseDups]

-- ================================================================ bodies

theorem bodyIn_cons (p : Piece) (ps : List Piece) (table : Text) :
    bodyIn (p :: ps) table = p.body table ++ bodyIn ps table :=
  List.flatMap_cons

theorem bodyIn_append (ps qs : List Piece) (table : Text) :
    bodyIn (ps ++ qs) table = bodyIn ps table ++ bodyIn qs table :=
  List.flatMap_append

theorem dataIn_cons (p : Piece) (ps : List Piece) (table : Text) :
    dataIn (p :: ps) table
      = (p.body table).filter Statement.isData ++ dataIn ps table := by
  unfold dataIn
  rw [bodyIn_cons, List.filter_append]

theorem dataIn_append (ps qs : List Piece) (table : Text) :
    dataIn (ps ++ qs) table = dataIn ps table ++ dataIn qs table := by
  unfold dataIn
  rw [bodyIn_append, List.filter_append]

/-- A table whose body has statements has a context. -/
theorem exists_context_of_mem_bodyIn {ps : List Piece} {table : Text}
    {st : Statement} (h : st ∈ bodyIn ps table) :
    ∃ c, Piece.context c ∈ ps ∧ c.table = table ∧ st ∈ c.statements := by
  obtain ⟨p, hp, hst⟩ := List.mem_flatMap.1 h
  cases p with
  | line l => cases hst
  | context c =>
      rw [Piece.body] at hst
      split at hst
      case isTrue hin => exact ⟨c, hp, hin.1, hst⟩
      case isFalse => cases hst

/-- The body of a resolved piece is that of its block. -/
theorem body_blockOf {n : Names} {p : Piece} (h : p.ResolvesIn n)
    (table : Text) :
    (blockOf n p.chunk).1.body table = p.body table := by
  cases p with
  | context c =>
      rw [blockOf_context h]
      obtain ⟨t, region, gathered, statements⟩ := c
      cases region with
      | body => simp only [Block.body, Piece.body, and_true]
      | _ =>
          simp only [Block.body, Piece.body, reduceCtorEq, and_false, if_false]
  | line l =>
      rcases Piece.cases_line l
        with ⟨c, h⟩ | ⟨name, table, h⟩ | ⟨hcreation, hdeclaration⟩
      · rw [blockOf_creation h]
        rfl
      · rw [blockOf_declaration h]
        rfl
      · rw [blockOf_line hcreation hdeclaration]
        rfl

/-- The bodies of resolved pieces are those of their contexts. -/
theorem bodyOf_blocksOf {n : Names} {ps : List Piece} (h : Resolved n ps)
    (table : Text) :
    bodyOf (blocksOf n (ps.map Piece.chunk)).1 table = bodyIn ps table := by
  induction ps generalizing n with
  | nil => rfl
  | cons p ps ih =>
      have hrest := ih h.2
      unfold bodyOf at hrest ⊢
      rw [List.map_cons, blocksOf, List.flatMap_cons, bodyIn_cons]
      simp only [body_blockOf h.1, hrest]

-- ============================================================== literals

/-- The literals of a block are among the statements of its body. -/
theorem data_eq_filter (b : Block) (table : Text) :
    b.data table = (b.body table).filter Statement.isData := by
  cases b with
  | context t region statements =>
      cases region with
      | body =>
          rw [Block.data, Block.body]
          split <;> rfl
      | _ => rfl
  | _ => rfl

/-- The literals of resolved pieces are those of their contexts. -/
theorem data_planOf {ps : List Piece} (h : Resolved .none ps) :
    (planOf ps).data = dataIn ps := by
  funext table
  unfold dataIn
  rw [← bodyOf_blocksOf h, bodyOf, List.filter_flatMap]
  show dataOf _ table = _
  unfold dataOf
  simp only [funext fun b => data_eq_filter b table]

/-- Every gathered statement assigns a literal. -/
theorem isData_of_mem_dataIn {ps : List Piece} {table : Text} :
    ∀ s ∈ dataIn ps table, s.isData = true :=
  fun _ hs => (List.mem_filter.1 hs).2

/-- A table with literals has a context. -/
theorem exists_context_of_dataIn {ps : List Piece} {table : Text}
    (h : dataIn ps table ≠ []) :
    ∃ c, Piece.context c ∈ ps ∧ c.table = table := by
  obtain ⟨s, hs⟩ := List.exists_mem_of_ne_nil _ h
  obtain ⟨c, hc, htable, -⟩ :=
    exists_context_of_mem_bodyIn (List.mem_filter.1 hs).1
  exact ⟨c, hc, htable⟩

-- ======================================================== bindable tables

/-- What is known stays known. -/
theorem known_subset_blockOf (n : Names) (c : Chunk) :
    n.known ⊆ (blockOf n c).2.known := by
  cases c with
  | context header body =>
      show n.known ⊆ (resolve n header.table).2.known
      cases header.table with
      | id table => exact fun _ => List.mem_insert_of_mem
      | name given =>
          rw [resolve]
          cases n.aliases.lookup given with
          | none => exact List.Subset.refl _
          | some table => exact fun _ => List.mem_insert_of_mem
  | line l =>
      show n.known ⊆ (blockOf n (Piece.line l).chunk).2.known
      rcases Piece.cases_line l
        with ⟨c, h⟩ | ⟨name, table, h⟩ | ⟨hcreation, hdeclaration⟩
      · rw [blockOf_creation h]
        exact fun _ => List.mem_insert_of_mem
      · rw [blockOf_declaration h]
        exact fun _ => List.mem_insert_of_mem
      · rw [blockOf_line hcreation hdeclaration]
        unfold Names.afterLine
        cases mention? n.aliases (tokens l) with
        | none => cases marginTarget? l <;> exact List.Subset.refl _
        | some table =>
            cases marginTarget? l <;> exact fun _ => List.mem_insert_of_mem

theorem known_subset_blocksOf (n : Names) (cs : List Chunk) :
    n.known ⊆ (blocksOf n cs).2.known := by
  induction cs generalizing n with
  | nil => exact List.Subset.refl _
  | cons c cs ih =>
      rw [blocksOf]
      exact List.Subset.trans (known_subset_blockOf n c) (ih _)

/-- The table of a resolved context may be bound. -/
theorem mem_known_of_context {n : Names} {ps : List Piece} (h : Resolved n ps)
    {c : Context} (hc : Piece.context c ∈ ps) :
    c.table ∈ (blocksOf n (ps.map Piece.chunk)).2.known := by
  induction ps generalizing n with
  | nil => cases hc
  | cons p ps ih =>
      rw [List.map_cons, blocksOf]
      rcases List.mem_cons.1 hc with rfl | hc
      · refine known_subset_blocksOf _ _ ?_
        rw [blockOf_context h.1]
        exact List.mem_insert_self
      · exact ih h.2 hc

theorem mem_bindable_of_context {ps : List Piece} (h : Resolved .none ps)
    {c : Context} (hc : Piece.context c ∈ ps) :
    c.table ∈ (planOf ps).bindable :=
  List.mem_append_left _ (mem_known_of_context h hc)

-- ====================================================== nothing left over

section

variable {plan : Plan} {p : Progress}

theorem noticed_writeBlock (h : p.Noticed plan) (b : Block) :
    ((writeBlock plan p b).2.see b.reference?).Noticed plan :=
  ((extends_writeBlock h b).noticed h).see (settled_writeBlock h b)

/-- What is written stays written. -/
theorem flushed_writeBlocks (h : p.Noticed plan) (bs : List Block) :
    p.flushed ⊆ (writeBlocks plan p bs).2.flushed := by
  induction bs generalizing p with
  | nil => exact List.Subset.refl _
  | cons b bs ih =>
      exact List.Subset.trans (extends_writeBlock h b).flushed
        (ih (noticed_writeBlock h b))

/-- Every table that is referred to is settled in the end. -/
theorem settled_writeBlocks (h : p.Noticed plan) {bs : List Block} {b : Block}
    (hb : b ∈ bs) {table : Text} (htable : b.reference? = some table) :
    (writeBlocks plan p bs).2.Settled plan table := by
  induction bs generalizing p with
  | nil => cases hb
  | cons b' bs ih =>
      rcases List.mem_cons.1 hb with rfl | hb
      · exact (settled_writeBlock h b table htable).imp_right fun hflushed =>
          flushed_writeBlocks (noticed_writeBlock h b) bs hflushed
      · exact ih (noticed_writeBlock h b') hb

/-- The literals of every table that is created are written in the end. -/
theorem mem_flushed_of_creation (h : p.Noticed plan) {bs : List Block}
    {binding : Option Text} {table call : Text}
    (hcreation : .creation binding table call ∈ bs) :
    table ∈ (writeBlocks plan p bs).2.flushed := by
  induction bs generalizing p with
  | nil => cases hcreation
  | cons b bs ih =>
      rcases List.mem_cons.1 hcreation with rfl | hcreation
      · refine flushed_writeBlocks
          (noticed_writeBlock h (.creation binding table call)) bs ?_
        rw [writeBlock_creation]
        exact mem_flushed_flush table
      · exact ih (noticed_writeBlock h b) hcreation

/-- Tables whose literals are written are passed over. -/
theorem flushAll_of_flushed {tables : List Text}
    (h : ∀ t ∈ tables, t ∈ p.flushed) :
    flushAll plan p tables = ([], p) := by
  induction tables with
  | nil => rfl
  | cons t tables ih =>
      have hflush : flush plan p t = ([], p) := by
        unfold flush
        rw [if_pos (by simpa using h t List.mem_cons_self)]
      rw [flushAll, hflush]
      simp only [ih fun t ht => h t (List.mem_cons_of_mem _ ht),
        List.nil_append]

end

theorem exists_creation_of_mem_created {blocks : List Block}
    {bindable : List Text} {table : Text}
    (h : table ∈ (planFor blocks bindable).created) :
    ∃ binding call, .creation binding table call ∈ blocks := by
  obtain ⟨b, hb, htable⟩ := List.mem_filterMap.1 (List.mem_eraseDups.1 h)
  split at htable
  next binding t call =>
      injection htable with htable
      subst htable
      exact ⟨binding, call, hb⟩
  next => cases htable

/-- A table with literals has a context block. -/
theorem exists_block_of_dataOf {blocks : List Block} {table : Text}
    (h : dataOf blocks table ≠ []) :
    ∃ statements, .context table .body statements ∈ blocks := by
  obtain ⟨st, hst⟩ := List.exists_mem_of_ne_nil _ h
  obtain ⟨b, hb, hst⟩ := List.mem_flatMap.1 hst
  cases b with
  | context t region statements =>
      cases region with
      | body =>
          rw [Block.data] at hst
          split at hst
          case isTrue htable => exact ⟨statements, htable ▸ hb⟩
          case isFalse => cases hst
      | _ => cases hst
  | _ => cases hst

/-- The literals of every table are written once its blocks are. -/
theorem mem_flushed_of_dataOf {blocks : List Block} (bindable : List Text)
    {table : Text} (h : dataOf blocks table ≠ []) :
    table ∈ (writeBlocks (planFor blocks bindable) .none
      (blocks.map Block.withoutData)).2.flushed := by
  have hstart : Progress.none.Noticed (planFor blocks bindable) :=
    fun t ht => by cases ht
  obtain ⟨statements, hblock⟩ := exists_block_of_dataOf h
  have hmem := List.mem_map_of_mem (f := Block.withoutData) hblock
  rcases settled_writeBlocks hstart hmem rfl with hcreated | hflushed
  · obtain ⟨binding, call, hcreation⟩ :=
      exists_creation_of_mem_created hcreated
    exact mem_flushed_of_creation hstart
      (List.mem_map_of_mem (f := Block.withoutData) hcreation)
  · exact hflushed

theorem dataOf_of_dataTables {blocks : List Block} {table : Text}
    (h : table ∈ dataTables blocks) : dataOf blocks table ≠ [] := by
  unfold dataTables at h
  rw [List.mem_eraseDups, List.mem_mergeSort] at h
  obtain ⟨b, hb, htable⟩ := List.mem_filterMap.1 h
  split at htable
  next t statements =>
      split at htable
      case isTrue hany =>
          injection htable with htable
          subst htable
          obtain ⟨st, hst, hdata⟩ := List.any_eq_true.1 hany
          have hliteral : st ∈ Block.data t (.context t .body statements) := by
            rw [Block.data, if_pos rfl]
            exact List.mem_filter.2 ⟨hst, hdata⟩
          exact List.ne_nil_of_mem (List.mem_flatMap.2 ⟨_, hb, hliteral⟩)
      case isFalse => cases htable
  next => cases htable

/-- Nothing is left over once blocks are written: the literals of every table
have found their place. -/
theorem flushAll_dataTables (blocks : List Block) (bindable : List Text) :
    flushAll (planFor blocks bindable)
        (writeBlocks (planFor blocks bindable) .none
          (blocks.map Block.withoutData)).2
        (dataTables blocks)
      = ([],
        (writeBlocks (planFor blocks bindable) .none
          (blocks.map Block.withoutData)).2) :=
  flushAll_of_flushed fun _ ht => mem_flushed_of_dataOf bindable
    (dataOf_of_dataTables ht)

/-- Blocks are written as what is written on the way. -/
theorem piecesOf_eq (blocks : List Block) (bindable : List Text) :
    piecesOf blocks bindable
      = joinPieces (writeBlocks (planFor blocks bindable) .none
          (blocks.map Block.withoutData)).1 := by
  unfold piecesOf
  simp only [flushAll_dataTables, List.append_nil]

namespace Stage

variable {plan : Plan} {s : Stage}

theorem flushed_step (h : s.progress.Noticed plan) (p : Piece) :
    s.progress.flushed ⊆ (s.step plan p).2.progress.flushed :=
  (extends_writeBlock h _).flushed

/-- The literals of a table that is created are written with it. -/
theorem mem_flushed_of_created {p : Piece} {table : Text}
    (htable : p.created? = some table) :
    table ∈ (s.step plan p).2.progress.flushed := by
  cases p with
  | context c => cases htable
  | line l =>
      obtain ⟨c, hc, rfl⟩ := Option.map_eq_some_iff.1 htable
      rw [step_creation hc]
      exact mem_flushed_flush c.table

end Stage

/-- The pieces of the normal form are what a run writes. -/
theorem normalPieces_eq (ps : List Piece) :
    normalPieces ps = joinPieces (Stage.start.run (planOf ps) ps).1 := by
  have hwritten : writeBlocks (planOf ps) _ _ = _ :=
    Stage.writeBlocks_blocksOf (s := Stage.start) ps
  unfold normalPieces
  rw [piecesOf_eq, ← planOf]
  simp only [Stage.start] at hwritten ⊢
  rw [hwritten]

/-- The literals of every table are written in the end. -/
theorem mem_flushed_run {ps : List Piece} {table : Text}
    (h : (planOf ps).data table ≠ []) :
    table ∈ (Stage.start.run (planOf ps) ps).2.progress.flushed := by
  have hwritten : writeBlocks (planOf ps) _ _ = _ :=
    Stage.writeBlocks_blocksOf (s := Stage.start) ps
  have hflushed :=
    mem_flushed_of_dataOf (blocksOf .none (ps.map Piece.chunk)).2.bindable h
  rw [← planOf] at hflushed
  simp only [Stage.start] at hwritten ⊢
  rw [hwritten] at hflushed
  exact hflushed

end GridScript.Script
