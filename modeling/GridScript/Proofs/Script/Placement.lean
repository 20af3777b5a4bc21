/-
The place of a table's literals. They are written once, at the first block
that settles the table: its first creation if the script creates it, and
its first reference otherwise (`Block.settles?`). What this comes to in the
text is `InPlace`: the literals stand right behind the line of that block,
or right in front of the context that it is, with at most the binding of
the table's local name between (`literals_placed`).

# The argument

A pass over blocks is cut at one of them (`written_split`). In front of the
cut the literals of the table are not written, because no block there
settles the table (`mem_flushed_writeBlocks_iff`); at the cut they are
(`writeBlock_settling`). Joining contexts moves neither the line, which is
no context, nor the literals, which are the only ones of their scope.
-/
import GridScript.Proofs.Script.Conservation
import GridScript.Proofs.Script.Idempotent

namespace GridScript.Script

variable {plan : Plan} {p : Progress}

-- ======================================================= a run, cut in two

theorem writeBlocks_cons (b : Block) (bs : List Block) :
    writeBlocks plan p (b :: bs)
      = ((writeBlock plan p b).1
            ++ (writeBlocks plan
              ((writeBlock plan p b).2.see b.reference?) bs).1,
          (writeBlocks plan ((writeBlock plan p b).2.see b.reference?)
            bs).2) := rfl

theorem writeBlocks_append (bs cs : List Block) :
    writeBlocks plan p (bs ++ cs)
      = ((writeBlocks plan p bs).1
          ++ (writeBlocks plan (writeBlocks plan p bs).2 cs).1,
            (writeBlocks plan (writeBlocks plan p bs).2 cs).2) := by
  induction bs generalizing p with
  | nil => rfl
  | cons b bs ih =>
      rw [List.cons_append, writeBlocks_cons, writeBlocks_cons, ih,
        List.append_assoc]

theorem noticed_writeBlocks (h : p.Noticed plan) (bs : List Block) :
    (writeBlocks plan p bs).2.Noticed plan := by
  induction bs generalizing p with
  | nil => exact h
  | cons b bs ih => exact ih (noticed_writeBlock h b)

theorem noticed_none (plan : Plan) : Progress.none.Noticed plan :=
  fun t ht => by cases ht

-- ================================================= what a block settles

/-- The table whose literals a block is a place for: the one that it
creates, or the one that it refers to if the script does not create it. -/
def Block.settles? (created : List Text) : Block → Option Text
  | creation _ table _ => some table
  | b => b.reference?.filter fun table => !created.contains table

theorem settles?_withoutData (created : List Text) (b : Block) :
    b.withoutData.settles? created = b.settles? created := by
  cases b with
  | context table region statements => cases region <;> rfl
  | _ => rfl

theorem line?_withoutData (b : Block) : b.withoutData.line? = b.line? := by
  cases b with
  | context table region statements => cases region <;> rfl
  | _ => rfl

theorem exists_statements_of_withoutData {b : Block} {table : Text}
    {region : Region} {kept : List Statement}
    (h : b.withoutData = .context table region kept) :
    ∃ statements, b = .context table region statements
      ∧ (⟨table, region, false, statements⟩ : Context).kept = kept := by
  cases b with
  | context t r statements =>
      have hkept := withoutData_context ⟨t, r, false, statements⟩
      rw [h] at hkept
      injection hkept with htable hregion hkept
      subst htable hregion hkept
      exact ⟨statements, rfl, rfl⟩
  | _ => cases h

/-- A creation settles its table, and any other block one that is not
created. -/
theorem settles?_eq_some_iff {created : List Text} {b : Block} {table : Text} :
    b.settles? created = some table
      ↔ b.created? = some table
        ∨ (b.reference? = some table ∧ table ∉ created) := by
  cases b with
  | creation binding t call =>
      show some t = some table ↔ some t = some table ∨ (none = some table ∧ _)
      simp
  | _ => simp [Block.settles?, Block.created?, Option.filter_eq_some_iff]

theorem mem_flushed_settle_iff {table t : Text} :
    t ∈ (settle plan p table).2.flushed
      ↔ t ∈ p.flushed ∨ (table = t ∧ t ∉ plan.created) := by
  unfold settle
  by_cases hcreated : table ∈ plan.created
  · rw [if_pos hcreated]
    refine ⟨Or.inl, fun h => h.resolve_right ?_⟩
    rintro ⟨rfl, hnew⟩
    exact hnew hcreated
  · rw [if_neg hcreated, mem_flushed_flush_iff]
    constructor
    · rintro (rfl | h)
      · exact Or.inr ⟨rfl, hcreated⟩
      · exact Or.inl h
    · rintro (h | ⟨rfl, -⟩)
      · exact Or.inr h
      · exact Or.inl rfl

/-- The literals of a table are written once a block settles it. -/
theorem mem_flushed_writeBlock_iff (h : p.Noticed plan) (b : Block)
    {table : Text} :
    table ∈ (writeBlock plan p b).2.flushed
      ↔ table ∈ p.flushed ∨ b.settles? plan.created = some table := by
  rw [settles?_eq_some_iff]
  cases b with
  | creation binding t call =>
      rw [writeBlock_creation, mem_flushed_flush_iff]
      simp [Progress.bind, Block.created?, Block.reference?, or_comm, eq_comm]
  | declaration name t l =>
      -- the line may be dropped, but it settles the table
      by_cases hredundant : name = tableAlias t ∧ p.bound.lookup name = some t
      · rw [writeBlock_redundant h l hredundant.1 hredundant.2,
          mem_flushed_settle_iff]
        simp [Block.created?, Block.reference?]
      · rw [writeBlock_declaration h l hredundant, mem_flushed_settle_iff]
        simp [Progress.bind, Block.created?, Block.reference?]
  | line l t =>
      have hline : (p.afterLine l).flushed = p.flushed := by
        unfold Progress.afterLine
        split <;> rfl
      rw [writeBlock_line h]
      cases t with
      | none => simp [settleMention, hline, Block.created?, Block.reference?]
      | some t =>
          show table ∈ (settle plan (p.afterLine l) t).2.flushed ↔ _
          rw [mem_flushed_settle_iff, hline]
          simp [Block.created?, Block.reference?]
  | context t region statements =>
      rw [writeBlock_context h, flushed_writeContext, mem_flushed_settle_iff]
      simp [Block.created?, Block.reference?]

theorem mem_flushed_writeBlocks_iff (h : p.Noticed plan) (bs : List Block)
    {table : Text} :
    table ∈ (writeBlocks plan p bs).2.flushed
      ↔ table ∈ p.flushed
        ∨ ∃ b ∈ bs, b.settles? plan.created = some table := by
  induction bs generalizing p with
  | nil => simp [writeBlocks]
  | cons b bs ih =>
      have hsee : ((writeBlock plan p b).2.see b.reference?).flushed
          = (writeBlock plan p b).2.flushed := rfl
      rw [writeBlocks_cons, ih (noticed_writeBlock h b), hsee,
        mem_flushed_writeBlock_iff h, or_assoc]
      simp

-- ===================================================== what names stand for

/-- Every name that is bound stands for a settled table. -/
def Progress.Grounded (plan : Plan) (p : Progress) : Prop :=
  ∀ name table, p.bound.lookup name = some table → p.Settled plan table

theorem bound_writeContext {c : Context} {name t : Text}
    (h : (writeContext plan p c).2.bound.lookup name = some t) :
    p.bound.lookup name = some t ∨ c.table = t := by
  by_cases hne : c.statements = []
  · rw [writeContext_of_nil hne] at h
    exact Or.inl h
  · rw [writeContext_of_ne hne] at h
    unfold writeBinding at h
    split at h
    case isTrue =>
        rw [Progress.bind, Aliases.lookup_rebind] at h
        split at h
        case isTrue => exact Or.inr (Option.some.inj h)
        case isFalse => exact Or.inl h
    case isFalse => exact Or.inl h

theorem bound_flush {table name t : Text}
    (h : (flush plan p table).2.bound.lookup name = some t) :
    p.bound.lookup name = some t ∨ table = t := by
  by_cases hflushed : table ∈ p.flushed
  · rw [flush_of_flushed hflushed] at h
    exact Or.inl h
  · rw [flush_of_not_flushed hflushed] at h
    exact bound_writeContext h

theorem bound_settle {table name t : Text}
    (h : (settle plan p table).2.bound.lookup name = some t) :
    p.bound.lookup name = some t ∨ table = t := by
  unfold settle at h
  split at h
  case isTrue => exact Or.inl h
  case isFalse => exact bound_flush h

theorem bound_bind {given table name t : Text}
    (h : (p.bind given table).bound.lookup name = some t) :
    p.bound.lookup name = some t ∨ table = t := by
  rw [Progress.bind, Aliases.lookup_rebind] at h
  split at h
  case isTrue => exact Or.inr (Option.some.inj h)
  case isFalse => exact Or.inl h

/-- A block binds names to no table but its own. -/
theorem bound_writeBlock (hnoticed : p.Noticed plan) {b : Block}
    {name t : Text} (h : (writeBlock plan p b).2.bound.lookup name = some t) :
    p.bound.lookup name = some t ∨ b.created? = some t
      ∨ b.reference? = some t := by
  cases b with
  | creation binding table call =>
      rw [writeBlock_creation] at h
      rcases bound_flush h with h | rfl
      · exact (bound_bind h).imp_right fun heq => Or.inl (congrArg some heq)
      · exact Or.inr (Or.inl rfl)
  | declaration given table l =>
      have hown : table = t →
          Block.reference? (.declaration given table l) = some t :=
        fun heq => congrArg some heq
      by_cases hredundant : given = tableAlias table
        ∧ p.bound.lookup given = some table
      · rw [writeBlock_redundant hnoticed l hredundant.1 hredundant.2] at h
        exact (bound_settle h).imp_right fun heq => Or.inr (hown heq)
      · rw [writeBlock_declaration hnoticed l hredundant] at h
        rcases bound_settle h with h | heq
        · exact (bound_bind h).imp_right fun heq => Or.inr (hown heq)
        · exact Or.inr (Or.inr (hown heq))
  | line l table =>
      have hline : (p.afterLine l).bound.lookup name = some t →
          p.bound.lookup name = some t := by
        intro h
        unfold Progress.afterLine at h
        split at h
        · rw [Progress.unbind, Aliases.lookup_without] at h
          split at h
          · cases h
          · exact h
        · exact h
      rw [writeBlock_line hnoticed] at h
      cases table with
      | none => exact Or.inl (hline h)
      | some table =>
          rcases bound_settle h with h | rfl
          · exact Or.inl (hline h)
          · exact Or.inr (Or.inr rfl)
  | context table region statements =>
      rw [writeBlock_context hnoticed] at h
      rcases bound_writeContext h with h | rfl
      · exact (bound_settle h).imp_right fun heq => Or.inr (congrArg some heq)
      · exact Or.inr (Or.inr rfl)

theorem grounded_writeBlock (hnoticed : p.Noticed plan) (h : p.Grounded plan)
    (b : Block) :
    ((writeBlock plan p b).2.see b.reference?).Grounded plan := by
  intro name t hbound
  show (writeBlock plan p b).2.Settled plan t
  rcases bound_writeBlock hnoticed hbound with hold | hcreated | hreference
  · exact (extends_writeBlock hnoticed b).settled (h name t hold)
  · refine Or.inr ((mem_flushed_writeBlock_iff hnoticed b).2 (Or.inr ?_))
    exact settles?_eq_some_iff.2 (Or.inl hcreated)
  · exact settled_writeBlock hnoticed b t hreference

theorem grounded_writeBlocks (hnoticed : p.Noticed plan) (h : p.Grounded plan)
    (bs : List Block) :
    (writeBlocks plan p bs).2.Grounded plan := by
  induction bs generalizing p with
  | nil => exact h
  | cons b bs ih =>
      exact ih (noticed_writeBlock hnoticed b)
        (grounded_writeBlock hnoticed h b)

theorem grounded_none (plan : Plan) : Progress.none.Grounded plan :=
  fun name t h => by cases h

-- ============================================================ the place

/-- What stands between a place and the literals of a table: nothing, or the
line that binds the table's local name. -/
def Opening (table : Text) (ps : List Piece) : Prop :=
  ps = [] ∨ ps = [.line (bindingLine table)]

/-- A context whose literals or statements are due is written behind at most
a binding. -/
theorem exists_opening_writeContext {c : Context} (hne : c.statements ≠ []) :
    ∃ opening, Opening c.table opening
      ∧ (writeContext plan p c).1 = opening ++ [.context c] := by
  rw [writeContext_of_ne hne]
  refine ⟨_, ?_, rfl⟩
  unfold writeBinding
  split
  case isTrue => exact Or.inr rfl
  case isFalse => exact Or.inl rfl

theorem exists_opening_flush {table : Text} (hdue : table ∉ p.flushed)
    (hdata : plan.data table ≠ []) :
    ∃ opening, Opening table opening
      ∧ (flush plan p table).1
        = opening ++ [.context (gatheredOn table (plan.data table))] := by
  rw [flush_of_not_flushed hdue]
  exact exists_opening_writeContext
    (c := gatheredOn table (plan.data table)) hdata

/-- Behind the literals of a table its contexts need no binding. -/
theorem writeContext_flush {table : Text} (hdue : table ∉ p.flushed)
    (hdata : plan.data table ≠ []) {c : Context} (htable : c.table = table) :
    (writeContext plan (flush plan p table).2 c).1
      = if c.statements = [] then [] else [.context c] := by
  subst htable
  split
  case isTrue hnil => rw [writeContext_of_nil hnil]
  case isFalse hne =>
      rw [writeContext_of_ne hne, flush_of_not_flushed hdue,
        writeContext_of_ne
          (c := ⟨c.table, .body, true, plan.data c.table⟩) hdata]
      simp only [writeBinding_again, List.nil_append]

/-- At a block that settles a table its literals are written, behind the
block's line or in front of its context. -/
theorem writeBlock_settling (hnoticed : p.Noticed plan)
    (hgrounded : p.Grounded plan) {b : Block} {table : Text}
    (hsettles : b.settles? plan.created = some table)
    (hdue : table ∉ p.flushed) (hdata : plan.data table ≠ []) :
    ∃ opening, Opening table opening
      ∧ ((∃ l, b.line? = some l ∧ (writeBlock plan p b).1
            = .line l
              :: (opening ++ [.context (gatheredOn table (plan.data table))]))
        ∨ ∃ region statements, b = .context table region statements
            ∧ (writeBlock plan p b).1
              = opening ++ .context (gatheredOn table (plan.data table))
                  :: if statements = [] then []
                    else [.context ⟨table, region, false, statements⟩]) := by
  cases b with
  | creation binding t call =>
      obtain rfl : t = table := Option.some.inj hsettles
      rw [writeBlock_creation]
      obtain ⟨opening, hopening, hwritten⟩ := exists_opening_flush
        (p := p.bind (binding.getD (tableAlias t)) t) hdue hdata
      exact ⟨opening, hopening, Or.inl ⟨_, rfl, by rw [hwritten]⟩⟩
  | declaration name t l =>
      obtain ⟨hreference, hcreated⟩ :=
        (settles?_eq_some_iff.1 hsettles).resolve_left nofun
      obtain rfl : t = table := Option.some.inj hreference
      -- the literals are due, so the name is not bound to the table yet
      have hnew : ¬(name = tableAlias t ∧ p.bound.lookup name = some t) :=
        fun h =>
          (hgrounded name t h.2).elim hcreated hdue
      rw [writeBlock_declaration hnoticed l hnew, settle, if_neg hcreated]
      obtain ⟨opening, hopening, hwritten⟩ :=
        exists_opening_flush (p := p.bind name t) hdue hdata
      exact ⟨opening, hopening, Or.inl ⟨_, rfl, by rw [hwritten]⟩⟩
  | line l t =>
      obtain ⟨hreference, hcreated⟩ :=
        (settles?_eq_some_iff.1 hsettles).resolve_left nofun
      obtain rfl : t = some table := hreference
      have hdue' : table ∉ (p.afterLine l).flushed := by
        unfold Progress.afterLine
        split <;> exact hdue
      rw [writeBlock_line hnoticed, settleMention, settle, if_neg hcreated]
      obtain ⟨opening, hopening, hwritten⟩ := exists_opening_flush hdue' hdata
      exact ⟨opening, hopening, Or.inl ⟨_, rfl, by rw [hwritten]⟩⟩
  | context t region statements =>
      obtain ⟨hreference, hcreated⟩ :=
        (settles?_eq_some_iff.1 hsettles).resolve_left nofun
      obtain rfl : t = table := Option.some.inj hreference
      rw [writeBlock_context hnoticed, settle, if_neg hcreated]
      obtain ⟨opening, hopening, hwritten⟩ := exists_opening_flush hdue hdata
      refine ⟨opening, hopening, Or.inr ⟨region, statements, rfl, ?_⟩⟩
      rw [hwritten, writeContext_flush hdue hdata rfl, List.append_assoc]
      rfl

-- ==================================================== joined around a place

theorem joinPieces_append_line (ps : List Piece) (l : Text) (qs : List Piece) :
    joinPieces (ps ++ .line l :: qs)
      = joinPieces ps ++ .line l :: joinPieces qs := by
  induction ps with
  | nil => rfl
  | cons p ps ih =>
      cases p with
      | line m =>
          rw [List.cons_append, joinPieces_line, ih, joinPieces_line]; rfl
      | context c =>
          rw [List.cons_append, joinPieces_context, ih, joinPieces_context]
          match joinPieces ps with
          | [] => rfl
          | .line m :: rest => rfl
          | .context d :: rest =>
              rw [List.cons_append, consContext, consContext]
              split <;> rfl

/-- An opening is no context, and nothing in it is joined. -/
theorem Opening.joinPieces {table : Text} {opening : List Piece}
    (h : Opening table opening) (ps : List Piece) :
    Script.joinPieces (opening ++ ps) = opening ++ Script.joinPieces ps := by
  rcases h with rfl | rfl <;> rfl

theorem Opening.joinPieces_append {table : Text} {opening : List Piece}
    (h : Opening table opening) (ps : List Piece) :
    Script.joinPieces (ps ++ opening) = Script.joinPieces ps ++ opening := by
  rcases h with rfl | rfl
  · rw [List.append_nil, List.append_nil]
  · exact joinPieces_append_line ps (bindingLine table) []

/-- Is the piece a context of the same scope? -/
def Piece.inScope (c : Context) : Piece → Bool
  | .context d => d.sameScope c
  | .line _ => false

/-- What is alone of its scope is alone at every place where it stands. -/
theorem Alone.apart {c : Context} {ps before after : List Piece}
    (h : Alone c ps) (hsplit : ps = before ++ .context c :: after) :
    ∀ d, .context d ∈ before ++ after → d.sameScope c = false := by
  obtain ⟨before', after', hsplit', hothers⟩ := h
  have hself : (Piece.context c).inScope c = true :=
    sameScope_iff.2 ⟨rfl, rfl, rfl⟩
  -- there is one piece of the scope in all, so none is left for the pieces
  -- around this one
  have hnone : (before' ++ after').countP (Piece.inScope c) = 0 := by
    rw [List.countP_eq_zero]
    intro q hq
    cases q with
    | line l => exact Bool.false_ne_true
    | context d => exact Bool.eq_false_iff.1 (hothers d hq)
  have hcount :=
    congrArg (List.countP (Piece.inScope c)) (hsplit.symm.trans hsplit')
  rw [List.countP_append, List.countP_append, List.countP_cons_of_pos hself,
    List.countP_cons_of_pos hself] at hcount
  rw [List.countP_append] at hnone
  intro d hd
  have hzero : (before ++ after).countP (Piece.inScope c) = 0 := by
    rw [List.countP_append]
    omega
  exact Bool.eq_false_iff.2 (List.countP_eq_zero.1 hzero _ hd)

-- ================================================= what is written in front

/-- A context that is written where a table is settled is that table's, and
its literals are written. -/
theorem flushed_of_mem_flush {table : Text} {d : Context}
    (h : .context d ∈ (flush plan p table).1) :
    d.table ∈ (flush plan p table).2.flushed := by
  by_cases hflushed : table ∈ p.flushed
  · rw [flush_of_flushed hflushed] at h
    cases h
  · rw [mem_flushed_flush_iff]
    rw [flush_of_not_flushed hflushed] at h
    rcases mem_writeContext h with heq | ⟨-, heq⟩
    · cases heq
    · injection heq with heq
      exact Or.inl (congrArg Context.table heq)

theorem flushed_of_mem_settle {table : Text} {d : Context}
    (h : .context d ∈ (settle plan p table).1) :
    d.table ∈ (settle plan p table).2.flushed := by
  by_cases hcreated : table ∈ plan.created
  · rw [settle, if_pos hcreated] at h
    cases h
  · rw [settle, if_neg hcreated] at h ⊢
    exact flushed_of_mem_flush h

/-- A context is written for a context of the script or to settle its
table. -/
theorem exists_context_of_mem_writeBlock (hnoticed : p.Noticed plan)
    {b : Block} {d : Context} (h : .context d ∈ (writeBlock plan p b).1) :
    (∃ statements, b = .context d.table d.region statements)
      ∨ d.table ∈ (writeBlock plan p b).2.flushed := by
  cases b with
  | creation binding table call =>
      rw [writeBlock_creation] at h ⊢
      exact Or.inr
        (flushed_of_mem_flush ((List.mem_cons.1 h).resolve_left nofun))
  | declaration name table l =>
      right
      by_cases hredundant : name = tableAlias table
        ∧ p.bound.lookup name = some table
      · rw [writeBlock_redundant hnoticed l hredundant.1 hredundant.2] at h ⊢
        exact flushed_of_mem_settle h
      · rw [writeBlock_declaration hnoticed l hredundant] at h ⊢
        exact flushed_of_mem_settle ((List.mem_cons.1 h).resolve_left nofun)
  | line l table =>
      right
      rw [writeBlock_line hnoticed] at h ⊢
      have h := (List.mem_cons.1 h).resolve_left nofun
      cases table with
      | none => cases h
      | some table => exact flushed_of_mem_settle h
  | context table region statements =>
      rw [writeBlock_context hnoticed] at h ⊢
      -- one of literals in front, or the context itself
      rcases List.mem_append.1 h with h | h
      · right
        rw [flushed_writeContext]
        exact flushed_of_mem_settle h
      · left
        rcases mem_writeContext h with heq | ⟨-, heq⟩
        · cases heq
        · injection heq with heq
          exact ⟨statements, by rw [heq]⟩

theorem exists_context_of_mem_writeBlocks (hnoticed : p.Noticed plan)
    {bs : List Block} {d : Context}
    (h : .context d ∈ (writeBlocks plan p bs).1) :
    (∃ statements, .context d.table d.region statements ∈ bs)
      ∨ d.table ∈ (writeBlocks plan p bs).2.flushed := by
  induction bs generalizing p with
  | nil => cases h
  | cons b bs ih =>
      have hlater := noticed_writeBlock hnoticed b
      rw [writeBlocks_cons] at h ⊢
      rcases List.mem_append.1 h with h | h
      · rcases exists_context_of_mem_writeBlock hnoticed h
          with ⟨statements, rfl⟩ | hflushed
        · exact Or.inl ⟨statements, List.mem_cons_self⟩
        · exact Or.inr (flushed_writeBlocks hlater bs hflushed)
      · exact (ih hlater h).imp_left fun ⟨statements, hb⟩ =>
          ⟨statements, List.mem_cons_of_mem b hb⟩

/-- What the blocks in front of a place are written as. -/
def lead (blocks : List Block) (bindable : List Text) (before : List Block) :
    List Piece :=
  joinPieces
    (writeBlocks (planFor blocks bindable) .none
      (before.map Block.withoutData)).1

theorem mem_created_planFor {blocks : List Block} {bindable : List Text}
    {table : Text} :
    table ∈ (planFor blocks bindable).created
      ↔ ∃ b ∈ blocks, b.created? = some table := by
  show table ∈ (blocks.filterMap Block.created?).eraseDups ↔ _
  rw [List.mem_eraseDups, List.mem_filterMap]

section

variable {blocks before : List Block} {bindable : List Text} {table : Text}

/-- In front of the first block that settles a table its literals are not
written. -/
theorem not_flushed_before
    (hfirst : ∀ b ∈ before,
      b.settles? (planFor blocks bindable).created ≠ some table) :
    table ∉ (writeBlocks (planFor blocks bindable) .none
      (before.map Block.withoutData)).2.flushed := by
  rw [mem_flushed_writeBlocks_iff (noticed_none _)]
  rintro (h | ⟨b', hb', hsettles⟩)
  · cases h
  · obtain ⟨b, hb, rfl⟩ := List.mem_map.1 hb'
    rw [settles?_withoutData] at hsettles
    exact hfirst b hb hsettles

/-- A context of the table that stands there was one in the script. -/
theorem exists_context_of_mem_lead
    (hfirst : ∀ b ∈ before,
      b.settles? (planFor blocks bindable).created ≠ some table)
    {d : Context} (hd : .context d ∈ lead blocks bindable before)
    (htable : d.table = table) :
    ∃ region statements, .context table region statements ∈ before := by
  obtain ⟨e, he, hscope⟩ := exists_scope_of_mem_joinPieces hd
  obtain ⟨hsame, -, -⟩ := sameScope_iff.1 hscope
  rw [htable] at hsame
  rcases exists_context_of_mem_writeBlocks (noticed_none _) he
    with ⟨statements, hmem⟩ | hflushed
  · obtain ⟨b, hb, hwithout⟩ := List.mem_map.1 hmem
    rw [hsame] at hwithout
    cases b with
    | context t region ss =>
        have hown : Block.reference? (.context t region ss) = some table := by
          rw [← Stage.reference?_withoutData, hwithout]
          rfl
        obtain rfl : t = table := Option.some.inj hown
        exact ⟨region, ss, hb⟩
    | _ => cases hwithout
  · exact absurd (hsame ▸ hflushed) (not_flushed_before hfirst)

/-- What a script is written as, cut at one of its blocks. -/
theorem written_split {b : Block} {after : List Block}
    (hsplit : blocks = before ++ b :: after) :
    ∃ q : Progress, q.Noticed (planFor blocks bindable)
      ∧ (writeBlocks (planFor blocks bindable) .none
        (blocks.map Block.withoutData)).1
        = (writeBlocks (planFor blocks bindable) .none
          (before.map Block.withoutData)).1
          ++ ((writeBlock (planFor blocks bindable)
                (writeBlocks (planFor blocks bindable) .none
                  (before.map Block.withoutData)).2 b.withoutData).1
            ++ (writeBlocks (planFor blocks bindable) q
              (after.map Block.withoutData)).1) := by
  have hmap : blocks.map Block.withoutData
      = before.map Block.withoutData
        ++ b.withoutData :: after.map Block.withoutData := by
    rw [hsplit, List.map_append, List.map_cons]
  rw [hmap, writeBlocks_append, writeBlocks_cons]
  exact ⟨_, noticed_writeBlock (noticed_writeBlocks (noticed_none _) _) _, rfl⟩

end

/-- The literals of a table stand at the first block of a script that settles
the table: behind its line, or in front of its context. -/
theorem exists_place {ls : List Text} {table : Text}
    (hdata : dataOf (parseBlocks ls).1 table ≠ []) {before after : List Block}
    {b : Block} (hsplit : (parseBlocks ls).1 = before ++ b :: after)
    (hsettles : b.settles?
      (planFor (parseBlocks ls).1 (parseBlocks ls).2).created = some table)
    (hfirst : ∀ c ∈ before,
      c.settles? (planFor (parseBlocks ls).1 (parseBlocks ls).2).created
        ≠ some table) :
    ∃ opening, Opening table opening
      ∧ ((∃ l rest, b.line? = some l
            ∧ piecesOf (parseBlocks ls).1 (parseBlocks ls).2
            = lead (parseBlocks ls).1 (parseBlocks ls).2 before ++ .line l
              :: (opening ++ .context
                (gatheredOn table (dataOf (parseBlocks ls).1 table)) :: rest))
        ∨ ∃ region statements behind, b = .context table region statements
            ∧ piecesOf (parseBlocks ls).1 (parseBlocks ls).2
              = lead (parseBlocks ls).1 (parseBlocks ls).2 before
                ++ (opening ++ .context
                  (gatheredOn table (dataOf (parseBlocks ls).1 table))
                  :: joinPieces
                    ((Piece.context ⟨table, region, false, statements⟩).own
                      ++ behind))) := by
  have halone := (course_parseBlocks ls).alone hdata
  have hnoticed :=
    noticed_writeBlocks
      (noticed_none (planFor (parseBlocks ls).1 (parseBlocks ls).2))
      (before.map Block.withoutData)
  have hgrounded := grounded_writeBlocks (noticed_none _)
    (grounded_none (planFor (parseBlocks ls).1 (parseBlocks ls).2))
      (before.map Block.withoutData)
  obtain ⟨q, -, hwritten⟩ := @written_split _ _ (parseBlocks ls).2 _ _ hsplit
  generalize (writeBlocks _ q (after.map Block.withoutData)).1
    = behind at hwritten
  rw [← settles?_withoutData] at hsettles
  obtain ⟨opening, hopening, hblock⟩ :=
    writeBlock_settling hnoticed hgrounded hsettles
    (not_flushed_before hfirst) hdata
  have hplan : (planFor (parseBlocks ls).1 (parseBlocks ls).2).data table
      = dataOf (parseBlocks ls).1 table := rfl
  rw [hplan] at hblock
  refine ⟨opening, hopening, ?_⟩
  rw [piecesOf_eq]
  rcases hblock with ⟨l, hline, hblock⟩ | ⟨region, kept, hcontext, hblock⟩
  -- behind a line: the opening, and then the one context of literals
  · left
    rw [line?_withoutData] at hline
    rw [hblock, List.cons_append, List.append_assoc,
      List.singleton_append] at hwritten
    have happart :=
      halone.apart
        (hwritten.trans (List.append_assoc _ (.line l :: opening) _).symm)
    have hbehind : joinPieces (.context _ :: behind)
        = .context _ :: joinPieces behind :=
      @joinPieces_apart _ [] behind fun d hd =>
        happart d (List.mem_append_right _ hd)
    refine ⟨l, joinPieces behind, hline, ?_⟩
    rw [hwritten, joinPieces_append_line, hopening.joinPieces, hbehind]
    rfl
  -- in front of a context of the table
  · right
    obtain ⟨statements, rfl, rfl⟩ := exists_statements_of_withoutData hcontext
    refine ⟨region, statements, behind, rfl, ?_⟩
    rw [hblock, List.append_assoc,
      List.cons_append, ← List.append_assoc] at hwritten
    rw [hwritten, joinPieces_apart (halone.apart hwritten),
      hopening.joinPieces_append, List.append_assoc]
    rfl

-- ============================================================ the theorem

/-- Where the literals of a table stand among the pieces that blocks are
written as. -/
inductive InPlace (blocks : List Block) (bindable : List Text) (table : Text)
    (pieces : List Piece) : Prop where
  /-- If the table is created, behind its first creation. -/
  | created {before after : List Block} {binding : Option Text} {call : Text}
      {opening rest : List Piece}
      (split : blocks = before ++ .creation binding table call :: after)
      (first : ∀ b ∈ before, b.created? ≠ some table)
      (opens : Opening table opening)
      (written : pieces = lead blocks bindable before
        ++ .line (binding.getD (tableAlias table) ++ " = ".toList ++ call)
          :: (opening ++ .context (gatheredOn table (dataOf blocks table))
            :: rest))
      (ahead : ∀ d, .context d ∈ lead blocks bindable before →
        d.table = table →
        ∃ region statements, .context table region statements ∈ before) :
      InPlace blocks bindable table pieces
  /-- Otherwise, behind the first reference to it if that is a line. -/
  | mentioned {before after : List Block} {b : Block} {l : Text}
      {opening rest : List Piece}
      (uncreated : ∀ c ∈ blocks, c.created? ≠ some table)
      (split : blocks = before ++ b :: after)
      (line : b.line? = some l)
      (reference : b.reference? = some table)
      (first : ∀ c ∈ before, c.reference? ≠ some table)
      (opens : Opening table opening)
      (written : pieces = lead blocks bindable before
        ++ .line l
          :: (opening ++ .context (gatheredOn table (dataOf blocks table))
            :: rest))
      (ahead : ∀ d, .context d ∈ lead blocks bindable before →
        d.table ≠ table) :
      InPlace blocks bindable table pieces
  /-- Otherwise, in front of what is written for its first context. -/
  | inFront {before after : List Block} {region : Region}
      {statements : List Statement}
      {opening behind : List Piece}
      (uncreated : ∀ c ∈ blocks, c.created? ≠ some table)
      (split : blocks = before ++ .context table region statements :: after)
      (first : ∀ c ∈ before, c.reference? ≠ some table)
      (opens : Opening table opening)
      (written : pieces = lead blocks bindable before
        ++ (opening ++ .context (gatheredOn table (dataOf blocks table))
          :: joinPieces
            ((Piece.context ⟨table, region, false, statements⟩).own
              ++ behind)))
      (ahead : ∀ d, .context d ∈ lead blocks bindable before →
        d.table ≠ table) :
      InPlace blocks bindable table pieces

/-- A script with literals of a table settles the table. -/
theorem exists_settling {blocks : List Block} (bindable : List Text)
    {table : Text} (h : dataOf blocks table ≠ []) :
    ∃ before b after, blocks = before ++ b :: after
      ∧ b.settles? (planFor blocks bindable).created = some table
      ∧ ∀ c ∈ before,
        c.settles? (planFor blocks bindable).created ≠ some table := by
  have hsome : ∃ b ∈ blocks,
      b.settles? (planFor blocks bindable).created = some table := by
    by_cases hcreated : table ∈ (planFor blocks bindable).created
    · obtain ⟨b, hb, hcreates⟩ := mem_created_planFor.1 hcreated
      exact ⟨b, hb, settles?_eq_some_iff.2 (Or.inl hcreates)⟩
    · obtain ⟨statements, hb⟩ := exists_block_of_dataOf h
      exact ⟨_, hb, settles?_eq_some_iff.2 (Or.inr ⟨rfl, hcreated⟩)⟩
  obtain ⟨b, hfind⟩ := Option.isSome_iff_exists.1 ((List.find?_isSome
    (p := fun b : Block => b.settles? (planFor blocks bindable).created
      == some table)).2
      (by simpa using hsome))
  obtain ⟨hsettles, before, after, hsplit, hfirst⟩ :=
    List.find?_eq_some_iff_append.1 hfind
  exact ⟨before, b, after,
    hsplit, by simpa using hsettles, by simpa using hfirst⟩

theorem inPlace_piecesOf {ls : List Text} {table : Text}
    (h : dataOf (parseBlocks ls).1 table ≠ []) :
    InPlace (parseBlocks ls).1 (parseBlocks ls).2 table
      (piecesOf (parseBlocks ls).1 (parseBlocks ls).2) := by
  obtain ⟨before, b, after, hsplit, hsettles, hfirst⟩ :=
    exists_settling (parseBlocks ls).2 h
  obtain ⟨opening, hopening, hplace⟩ := exists_place h hsplit hsettles hfirst
  by_cases hcreated : table
    ∈ (planFor (parseBlocks ls).1 (parseBlocks ls).2).created
  -- the table is created, and its literals stand behind the creation
  · have hcreates :=
      (settles?_eq_some_iff.1 hsettles).resolve_right fun hreference =>
      hreference.2 hcreated
    cases b with
    | creation binding t call =>
        obtain rfl : t = table := Option.some.inj hcreates
        rcases hplace
          with ⟨l, rest, hline, hwritten⟩ | ⟨region, statements, behind,
            hcontext, -⟩
        · obtain rfl := Option.some.inj hline
          refine .created hsplit ?_ hopening hwritten fun d hd =>
            exists_context_of_mem_lead hfirst hd
          exact fun c hc hcreates =>
            hfirst c hc (settles?_eq_some_iff.2 (Or.inl hcreates))
        · cases hcontext
    | _ => cases hcreates
  -- it is not, and its literals stand at the first reference
  · have huncreated : ∀ c ∈ (parseBlocks ls).1, c.created? ≠ some table :=
      fun c hc hcreates =>
        hcreated (mem_created_planFor.2 ⟨c, hc, hcreates⟩)
    have hbefore : ∀ c ∈ before, c.reference? ≠ some table :=
      fun c hc hreference =>
        hfirst c hc (settles?_eq_some_iff.2 (Or.inr ⟨hreference, hcreated⟩))
    have hreference := ((settles?_eq_some_iff.1 hsettles).resolve_left
      (huncreated b (hsplit ▸ by simp))).1
    have hahead : ∀ d,
        .context d ∈ lead (parseBlocks ls).1 (parseBlocks ls).2 before →
        d.table ≠ table := by
      intro d hd htable
      obtain ⟨region, statements, hmem⟩ :=
        exists_context_of_mem_lead hfirst hd htable
      exact hbefore _ hmem rfl
    rcases hplace with
      ⟨l, rest, hline, hwritten⟩ | ⟨region, statements, behind, rfl, hwritten⟩
    · exact .mentioned huncreated hsplit hline hreference hbefore hopening
        hwritten hahead
    · exact .inFront huncreated hsplit hbefore hopening hwritten hahead

theorem dataOf_blank (table : Text) :
    dataOf (parseBlocks [[]]).1 table = [] := by
  have hline : blockOf .none (.line []) = _ :=
    @blockOf_line .none [] (by rw [tokens_nil]; rfl) (by rw [tokens_nil]; rfl)
  rw [parseBlocks, chunks_blank, blocksOf, hline]
  rfl

/-- In the normal form of a log the literals of every table have their place,
and none is left for the end. -/
theorem literals_placed (log : List Text) :
    normalize log = (logPieces log).flatMap Piece.render
      ∧ (∀ table, dataOf (parseBlocks (flatLines log)).1 table ≠ [] →
          InPlace (parseBlocks (flatLines log)).1
            (parseBlocks (flatLines log)).2 table
            (logPieces log))
      ∧ (flushAll
            (planFor (parseBlocks (flatLines log)).1
              (parseBlocks (flatLines log)).2)
            (writeBlocks
              (planFor (parseBlocks (flatLines log)).1
                (parseBlocks (flatLines log)).2)
              .none ((parseBlocks (flatLines log)).1.map Block.withoutData)).2
            (dataTables (parseBlocks (flatLines log)).1)).1 = [] := by
  refine ⟨normalize_eq log, ?_, congrArg Prod.fst (flushAll_dataTables _ _)⟩
  intro table hdata
  have hfilled : ¬(flatLines log = [] ∨ flatLines log = [[]]) := by
    rintro (hempty | hempty)
    · rw [hempty] at hdata
      exact hdata (by rw [parseBlocks, chunks]; rfl)
    · rw [hempty] at hdata
      exact hdata (dataOf_blank table)
  rw [logPieces, if_neg hfilled]
  exact inPlace_piecesOf hdata

/-- A log with literals of a table that it creates, of one that it looks up
and of one that it gives statements only. -/
def hoisted : List Text :=
  ["with table_context('c'):".toList, "    a0 = 1".toList,
    "p = proj.table('m')".toList, "with table_context(p):".toList,
    "    a0 = 2".toList, "t = proj.add_table('s', table_id='t')".toList,
    "with table_context(t):".toList, "    a0 = 3".toList]

theorem literals_placed_hoisted :
    (dataOf (parseBlocks (flatLines hoisted)).1 "t".toList ≠ []
        ∧ InPlace (parseBlocks (flatLines hoisted)).1
            (parseBlocks (flatLines hoisted)).2 "t".toList
            (logPieces hoisted))
      ∧ (dataOf (parseBlocks (flatLines hoisted)).1 "m".toList ≠ []
        ∧ InPlace (parseBlocks (flatLines hoisted)).1
            (parseBlocks (flatLines hoisted)).2 "m".toList
            (logPieces hoisted))
      ∧ dataOf (parseBlocks (flatLines hoisted)).1 "c".toList ≠ []
        ∧ InPlace (parseBlocks (flatLines hoisted)).1
            (parseBlocks (flatLines hoisted)).2 "c".toList
            (logPieces hoisted) := by
  have hcreated : dataOf (parseBlocks (flatLines hoisted)).1 "t".toList
      ≠ [] := by decide +kernel
  have hmentioned : dataOf (parseBlocks (flatLines hoisted)).1 "m".toList
      ≠ [] := by decide +kernel
  have hcontext : dataOf (parseBlocks (flatLines hoisted)).1 "c".toList
      ≠ [] := by decide +kernel
  obtain ⟨-, hplaced, -⟩ := literals_placed hoisted
  exact ⟨⟨hcreated, hplaced _ hcreated⟩, ⟨hmentioned, hplaced _ hmentioned⟩,
    hcontext, hplaced _ hcontext⟩

end GridScript.Script
