/-
Nothing is lost, doubled or put in another order by the normal form, apart
from what it is for. `Conserves` says where everything is afterwards:

* every line and every creation stands once and in its order (`Keeps`), and
  so does every declaration that tells something new; the lines that are
  added bind a local name to its table;
* the literals of a table stand once, in their order and together;
* all other statements of contexts stand once and in their order, each
  under a header for its own table and region.

# The argument

Each part is an induction on the course of writing: what is written next is
taken from the blocks that are to come or from what is owed, and nothing is
left of either at the end. Joining contexts comes last, and it moves
nothing; in particular, literals are joined with nothing else
(`joinPieces_apart`).
-/
import GridScript.Proofs.Script.Headers

namespace GridScript.Script

-- ================================================================= lines

/-- How the lines of a script by themselves are kept in what is written.
Lines are added that bind a local name, and a declaration is dropped if its
name is the table's local name and stands for the table already, in the
lines above. Contexts are no lines. -/
inductive Keeps : List Text → List Block → List Text → Prop where
  | done {above} : Keeps above [] []
  | added {above bs ls} (table : Text)
      (rest : Keeps (above ++ [bindingLine table]) bs ls) :
      Keeps above bs (bindingLine table :: ls)
  | written {above b l bs ls} (own : b.line? = some l)
      (rest : Keeps (above ++ [l]) bs ls) :
      Keeps above (b :: bs) (l :: ls)
  | dropped {above table l bs ls}
      (held : standing? (givings above) (tableAlias table) = some (some table))
      (rest : Keeps above bs ls) :
      Keeps above (.declaration (tableAlias table) table l :: bs) ls
  | context {above table region statements bs ls} (rest : Keeps above bs ls) :
      Keeps above (.context table region statements :: bs) ls

theorem Exact.line {bound : Aliases} {above : List Text}
    (h : Exact bound (givings above)) (l : Text) :
    Exact (bound.give (given? l)) (givings (above ++ [l])) := by
  have hgivings : givings (above ++ [l])
      = givings above ++ (given? l).toList := by
    rw [givings_append, givings_cons]
    exact congrArg _ (List.append_nil _)
  rw [hgivings]
  exact h.give (given? l)

theorem Course.keeps {bindable created : List Text} {last : Option Block}
    {bound : Aliases} {owed : Text → List Statement} {bs : List Block}
    {out : List Piece} (h : Course bindable created last bound owed bs out)
    {above : List Text} (hexact : Exact bound (givings above))
    (htold : ∀ b ∈ bs, b.Told) :
    Keeps above bs (linesIn out) := by
  induction h generalizing above with
  | done => exact .done
  | @binding _ _ _ _ c _ _ _ _ _ _ ih =>
      have hbound := hexact.line (bindingLine c.table)
      rw [given?_bindingLine] at hbound
      exact .added c.table (ih hbound htold)
  | literals due place headed rest ih => exact ih hexact htold
  | @kept _ _ _ b l _ _ own _ ih =>
      obtain ⟨hb, hbs⟩ := List.forall_mem_cons.1 htold
      have hbound := hexact.line l
      rw [hb l own] at hbound
      exact .written own (ih hbound hbs)
  | redundant headed rest ih =>
      exact .dropped ((hexact _ _).1 headed)
        (ih hexact (List.forall_mem_cons.1 htold).2)
  | context filled headed rest ih =>
      exact .context (ih hexact (List.forall_mem_cons.1 htold).2)
  | empty _ rest ih =>
      exact .context (ih hexact (List.forall_mem_cons.1 htold).2)

/-- Where literals are put makes no difference to the lines. -/
theorem Keeps.of_withoutData {above : List Text} {bs : List Block}
    {ls : List Text} (h : Keeps above (bs.map Block.withoutData) ls) :
    Keeps above bs ls := by
  generalize hbs : bs.map Block.withoutData = bs' at h
  induction h generalizing bs with
  | done =>
      rw [List.map_eq_nil_iff.1 hbs]
      exact .done
  | added table rest ih => exact .added table (ih hbs)
  | written own rest ih =>
      obtain ⟨b, bs, rfl, rfl, hrest⟩ := List.map_eq_cons_iff.1 hbs
      refine .written ?_ (ih hrest)
      rw [← own]
      cases b with
      | context table region statements => cases region <;> cases own
      | _ => rfl
  | dropped held rest ih =>
      obtain ⟨b, bs, rfl, hb, hrest⟩ := List.map_eq_cons_iff.1 hbs
      cases b with
      | context table region statements => cases region <;> cases hb
      | declaration name table l =>
          cases hb
          exact .dropped held (ih hrest)
      | _ => cases hb
  | context rest ih =>
      obtain ⟨b, bs, rfl, hb, hrest⟩ := List.map_eq_cons_iff.1 hbs
      cases b with
      | context table region statements => exact .context (ih hrest)
      | _ => cases hb

-- ============================================================ statements

/-- The statements of a context that stay where they are, each with the
table and the region that it belongs to. -/
def staying (table : Text) (region : Region) (statements : List Statement) :
    List (Text × Region × Statement) :=
  (statements.filter fun st => !(region = .body && st.isData)).map
    (table, region, ·)

/-- What stays of a block. -/
def Block.staying : Block → List (Text × Region × Statement)
  | context table region statements => Script.staying table region statements
  | _ => []

/-- What has stayed in a piece. -/
def Piece.staying : Piece → List (Text × Region × Statement)
  | context c => Script.staying c.table c.region c.statements
  | line _ => []

theorem staying_append (table : Text) (region : Region)
    (ss ts : List Statement) :
    staying table region (ss ++ ts)
      = staying table region ss ++ staying table region ts := by
  unfold staying
  rw [List.filter_append, List.map_append]

/-- Literals do not stay. -/
theorem staying_literals {table : Text} {statements : List Statement}
    (h : ∀ st ∈ statements, st.isData = true) :
    staying table .body statements = [] := by
  unfold staying
  rw [List.map_eq_nil_iff, List.filter_eq_nil_iff]
  intro st hst
  simp [h st hst]

theorem staying_withoutData (b : Block) :
    b.withoutData.staying = b.staying := by
  cases b with
  | context table region statements =>
      cases region with
      | body =>
          show ((statements.filter _).filter _).map _
              = (statements.filter _).map _
          rw [List.filter_filter]
          simp
      | _ => rfl
  | _ => rfl

theorem staying_joinPieces (ps : List Piece) :
    (joinPieces ps).flatMap Piece.staying = ps.flatMap Piece.staying := by
  refine joinPieces_induction
    (motive := fun ps qs => qs.flatMap Piece.staying
      = ps.flatMap Piece.staying) rfl ?_ ?_ ps
  · intro p ps qs ih
    rw [List.flatMap_cons, List.flatMap_cons, ih]
  · intro c d ps qs hscope ih
    obtain ⟨htable, hregion, -⟩ := sameScope_iff.1 hscope
    rw [← ih, List.flatMap_cons, List.flatMap_cons,
      List.flatMap_cons, ← List.append_assoc]
    congr 1
    show staying c.table c.region (c.statements ++ d.statements)
      = staying c.table c.region c.statements
        ++ staying d.table d.region d.statements
    rw [staying_append, htable, hregion]

section

variable {bindable created : List Text} {last : Option Block} {bound : Aliases}
  {owed : Text → List Statement} {bs : List Block} {out : List Piece}

/-- Paying leaves literals owed, and nothing else. -/
theorem isData_paid (h : ∀ t, ∀ st ∈ owed t, st.isData = true) (table : Text) :
    ∀ t, ∀ st ∈ paid owed table t, st.isData = true := by
  intro t st hst
  unfold paid at hst
  split at hst
  case isTrue => cases hst
  case isFalse => exact h t st hst

/-- What stays is written once and in its order. -/
theorem Course.staying (h : Course bindable created last bound owed bs out)
    (hliteral : ∀ t, ∀ st ∈ owed t, st.isData = true) :
    out.flatMap Piece.staying = bs.flatMap Block.staying := by
  induction h with
  | done => rfl
  | binding known unbound due place rest ih => exact ih hliteral
  | @literals _ _ owed _ table _ due place headed rest ih =>
      rw [List.flatMap_cons, ih (isData_paid hliteral table)]
      show Script.staying table .body (owed table) ++ _ = _
      rw [staying_literals (hliteral table), List.nil_append]
  | @kept _ _ _ b l _ _ own _ ih =>
      rw [List.flatMap_cons, List.flatMap_cons, ih hliteral]
      cases b with
      | context => cases own
      | _ => rfl
  | redundant headed rest ih => exact ih hliteral
  | context filled headed rest ih =>
      rw [List.flatMap_cons, List.flatMap_cons, ih hliteral]; rfl
  | empty _ rest ih => exact ih hliteral

/-- Literals are written from what is owed. -/
theorem Course.dataIn (h : Course bindable created last bound owed bs out)
    (hliteral : ∀ t, ∀ st ∈ owed t, st.isData = true)
    (hbs : ∀ b ∈ bs, ∀ t, b.data t = []) (table : Text) :
    dataIn out table = owed table := by
  induction h with
  | done settled => exact (settled table).symm
  | binding known unbound due place rest ih =>
      rw [dataIn_cons]
      exact ih hliteral hbs
  | @literals _ _ owed _ t _ due place headed rest ih =>
      rw [dataIn_cons, ih (isData_paid hliteral t) hbs]
      simp only [Piece.body, and_true]
      by_cases ht : t = table
      · subst ht
        rw [if_pos rfl, List.filter_eq_self.2 (hliteral t), paid_self,
          List.append_nil]
      · rw [if_neg ht, paid_of_ne owed (Ne.symm ht)]
        rfl
  | kept own rest ih =>
      rw [dataIn_cons]
      exact ih hliteral (List.forall_mem_cons.1 hbs).2
  | redundant headed rest ih =>
      exact ih hliteral (List.forall_mem_cons.1 hbs).2
  | @context _ _ _ t region statements _ _ filled headed rest ih =>
      obtain ⟨hb, hbs⟩ := List.forall_mem_cons.1 hbs
      -- what stays in a context is no literal
      have hnone :
          ((Piece.context ⟨t, region, false, statements⟩).body table).filter
          Statement.isData = [] := by
        rw [← hb table, data_eq_filter]
        unfold Piece.body Block.body
        cases region <;> simp
      rw [dataIn_cons, hnone, ih hliteral hbs, List.nil_append]
  | empty _ rest ih => exact ih hliteral (List.forall_mem_cons.1 hbs).2

-- ======================================================= literals together

/-- The context is among the pieces and the only one of its scope. -/
def Alone (c : Context) (ps : List Piece) : Prop :=
  ∃ before after, ps = before ++ .context c :: after
    ∧ ∀ d, .context d ∈ before ++ after → d.sameScope c = false

theorem Alone.cons {c : Context} {ps : List Piece} (h : Alone c ps) {p : Piece}
    (hp : ∀ d, p = .context d → d.sameScope c = false) :
    Alone c (p :: ps) := by
  obtain ⟨before, after, rfl, hothers⟩ := h
  refine ⟨p :: before, after, rfl, ?_⟩
  intro d hd
  rcases List.mem_cons.1 hd with hd | hd
  · exact hp d hd.symm
  · exact hothers d hd

theorem Alone.joinPieces {c : Context} {ps : List Piece} (h : Alone c ps) :
    Alone c (joinPieces ps) := by
  obtain ⟨before, after, rfl, hothers⟩ := h
  refine ⟨_, _, joinPieces_apart hothers, ?_⟩
  intro d hd
  have hfrom : ∃ e, .context e ∈ before ++ after ∧ e.sameScope d = true := by
    rcases List.mem_append.1 hd with hd | hd
    · obtain ⟨e, he, hscope⟩ := exists_scope_of_mem_joinPieces hd
      exact ⟨e, List.mem_append_left _ he, hscope⟩
    · obtain ⟨e, he, hscope⟩ := exists_scope_of_mem_joinPieces hd
      exact ⟨e, List.mem_append_right _ he, hscope⟩
  obtain ⟨e, he, hscope⟩ := hfrom
  obtain ⟨htable, hregion, hgathered⟩ := sameScope_iff.1 hscope
  have hold := hothers e he
  unfold Context.sameScope at hold ⊢
  rw [← htable, ← hregion, ← hgathered]
  exact hold

/-- A context of the literals of a table. -/
def gatheredOn (table : Text) (statements : List Statement) : Context :=
  ⟨table, .body, true, statements⟩

/-- What is left in place has another scope, and so do other tables'
literals. -/
theorem sameScope_gatheredOn {d : Context} {table : Text}
    {statements : List Statement} (h : d.gathered = true → d.table ≠ table) :
    d.sameScope (gatheredOn table statements) = false := by
  rw [Bool.eq_false_iff]
  intro hscope
  obtain ⟨htable, -, hgathered⟩ := sameScope_iff.1 hscope
  exact h hgathered htable

/-- Literals that are paid are not written. -/
theorem Course.apart_of_paid
    (h : Course bindable created last bound owed bs out) {table : Text}
    (hpaid : owed table = []) :
    ∀ d, .context d ∈ out → d.gathered = true → d.table ≠ table := by
  induction h with
  | done => exact fun d hd => by cases hd
  | binding known unbound due place rest ih =>
      intro d hd
      rcases List.mem_cons.1 hd with hd | hd
      · cases hd
      · exact ih hpaid d hd
  | @literals _ _ owed _ t _ due place headed rest ih =>
      have hne : table ≠ t := fun heq => due (heq ▸ hpaid)
      intro d hd
      rcases List.mem_cons.1 hd with hd | hd
      · injection hd with hd
        exact fun _ => hd ▸ Ne.symm hne
      · exact ih ((paid_of_ne owed hne).trans hpaid) d hd
  | kept own rest ih =>
      intro d hd
      rcases List.mem_cons.1 hd with hd | hd
      · cases hd
      · exact ih hpaid d hd
  | redundant headed rest ih => exact ih hpaid
  | context filled headed rest ih =>
      intro d hd
      rcases List.mem_cons.1 hd with hd | hd
      · injection hd with hd
        rw [hd]
        exact fun hgathered => by cases hgathered
      · exact ih hpaid d hd
  | empty _ rest ih => exact ih hpaid

/-- The literals that are owed for a table are written together. -/
theorem Course.alone (h : Course bindable created last bound owed bs out)
    {table : Text} (hdue : owed table ≠ []) :
    Alone (gatheredOn table (owed table)) out := by
  induction h with
  | done settled => exact absurd (settled table) hdue
  | binding known unbound due place rest ih =>
      exact (ih hdue).cons fun d hd => by cases hd
  | @literals _ _ owed _ t _ due place headed rest ih =>
      by_cases ht : table = t
      -- here the literals are written, and never again
      · subst ht
        exact ⟨[], _, rfl, fun d hd =>
          sameScope_gatheredOn
            (rest.apart_of_paid (paid_self owed table) d hd)⟩
      · rw [paid_of_ne owed ht] at ih
        refine (ih hdue).cons fun d hd => sameScope_gatheredOn fun _ => ?_
        injection hd with hd
        exact hd ▸ Ne.symm ht
  | kept own rest ih => exact (ih hdue).cons fun d hd => by cases hd
  | redundant headed rest ih => exact ih hdue
  | context filled headed rest ih =>
      refine (ih hdue).cons fun d hd =>
        sameScope_gatheredOn fun hgathered => ?_
      injection hd with hd
      rw [← hd] at hgathered
      cases hgathered
  | empty _ rest ih => exact ih hdue

end

-- ============================================================ the theorem

/-- Where the parts of blocks are in pieces. -/
structure Conserves (blocks : List Block) (pieces : List Piece) : Prop where
  /-- Lines, creations and declarations stand in their order. -/
  lines : Keeps [] blocks (linesIn pieces)
  /-- The literals of a table are written, and nothing else that is one. -/
  literals : ∀ table, dataIn pieces table = dataOf blocks table
  /-- They stand in one context. -/
  together : ∀ table, dataOf blocks table ≠ [] → ∃ before after,
    pieces
      = before ++ .context ⟨table, .body, true, dataOf blocks table⟩ :: after
      ∧ dataIn before table = [] ∧ dataIn after table = []
  /-- All other statements stand in their order under their headers. -/
  staying : pieces.flatMap Piece.staying = blocks.flatMap Block.staying

theorem isData_of_mem_dataOf {blocks : List Block} {table : Text} :
    ∀ st ∈ dataOf blocks table, st.isData = true := by
  intro st hst
  obtain ⟨b, -, hst⟩ := List.mem_flatMap.1 hst
  rw [data_eq_filter] at hst
  exact (List.mem_filter.1 hst).2

theorem data_withoutData (b : Block) (table : Text) :
    b.withoutData.data table = [] := by
  cases b with
  | context t region statements =>
      cases region with
      | body =>
          show (if t = table then (statements.filter _).filter _ else []) = []
          rw [List.filter_filter]
          simp
      | _ => rfl
  | _ => rfl

/-- A script's literals are written as they are in its blocks. -/
theorem dataIn_course {ls : List Text} {out : List Piece}
    (h : Course (parseBlocks ls).2 (createdBy (parseBlocks ls).1) none []
      (dataOf (parseBlocks ls).1)
      ((parseBlocks ls).1.map Block.withoutData) out) (table : Text) :
    dataIn out table = dataOf (parseBlocks ls).1 table := by
  refine h.dataIn (fun t => isData_of_mem_dataOf) ?_ table
  intro b' hb' t
  obtain ⟨b, -, rfl⟩ := List.mem_map.1 hb'
  exact data_withoutData b t

/-- The pieces of a script conserve its blocks. -/
theorem conserves_piecesOf (ls : List Text) :
    Conserves (parseBlocks ls).1
      (piecesOf (parseBlocks ls).1 (parseBlocks ls).2) := by
  obtain ⟨out, hjoined, hcourse⟩ := exists_course ls
  have hkeeps : Keeps [] _ (linesIn out) :=
    hcourse.keeps exact_nil (told_parseBlocks ls)
  have hliteral : ∀ t, ∀ st ∈ dataOf (parseBlocks ls).1 t, st.isData = true :=
    fun t => isData_of_mem_dataOf
  have hdata : ∀ table,
      dataIn (joinPieces out) table = dataOf (parseBlocks ls).1 table := by
    intro table
    rw [dataIn_joinPieces]
    exact dataIn_course hcourse table
  rw [hjoined]
  refine ⟨?_, hdata, ?_, ?_⟩
  · rw [linesIn_joinPieces]
    exact hkeeps.of_withoutData
  -- all literals of a table stand in one piece
  · intro table hdue
    obtain ⟨before, after, hpieces, -⟩ := (hcourse.alone hdue).joinPieces
    refine ⟨before, after, hpieces, ?_⟩
    have hwhole := hdata table
    have hown :
        ((Piece.context
            (gatheredOn table (dataOf (parseBlocks ls).1 table))).body
          table).filter Statement.isData
          = dataOf (parseBlocks ls).1 table := by
      rw [Piece.body, if_pos ⟨rfl, rfl⟩]
      exact List.filter_eq_self.2 (hliteral table)
    rw [hpieces, dataIn_append, dataIn_cons, hown] at hwhole
    -- the one context has them all already, so nothing is left for the pieces
    -- around it
    have hlength := congrArg List.length hwhole
    simp only [List.length_append] at hlength
    exact ⟨List.length_eq_zero_iff.1 (by omega),
      List.length_eq_zero_iff.1 (by omega)⟩
  · rw [staying_joinPieces, hcourse.staying hliteral, List.flatMap_map]
    simp only [staying_withoutData]

/-- The normal form of a log that is not one empty line conserves its
blocks. -/
theorem normalize_conserves {log : List Text} (h : flatLines log ≠ [[]]) :
    normalize log = (logPieces log).flatMap Piece.render
      ∧ Conserves (parseBlocks (flatLines log)).1 (logPieces log) := by
  refine ⟨normalize_eq log, ?_⟩
  have hconserves := conserves_piecesOf (flatLines log)
  unfold logPieces
  by_cases hnil : flatLines log = []
  · have hnone : piecesOf (parseBlocks []).1 (parseBlocks []).2 = [] := by
      rw [parseBlocks, chunks, piecesOf_eq]
      rfl
    rw [hnil, hnone] at hconserves
    rw [if_pos (Or.inl hnil), hnil]
    exact hconserves
  · rw [if_neg fun hempty => hempty.elim hnil h]
    exact hconserves

/-- A log with the literals of one table in two contexts. -/
def scattered : List Text :=
  ["with table_context(t):".toList, "    a0 = 1".toList,
    "    b0 = a0 + 1".toList, "f()".toList, "with table_context(t):".toList,
    "    a1 = 2".toList]

theorem normalize_conserves_scattered :
    flatLines scattered ≠ [[]]
      ∧ normalize scattered = (logPieces scattered).flatMap Piece.render
      ∧ Conserves (parseBlocks (flatLines scattered)).1
        (logPieces scattered) := by
  have h : flatLines scattered ≠ [[]] := by decide
  exact ⟨h, normalize_conserves h⟩

end GridScript.Script
