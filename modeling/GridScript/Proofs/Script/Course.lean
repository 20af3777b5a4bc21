/-
The course that writing takes. `Course` says once all that can happen while
blocks are written: which pieces can come next, under which conditions, and
what is bound and what is still owed behind them. Laws about what is
written are inductions on it, and none of them needs to know when a table
is referred to for the first time or in which order the writer asks its
questions.

# The conditions

A context stands where its table's local name is bound to the table, if a
binding may be written for the table at all. A binding is written right in
front of a context that it is needed for, and nowhere else. The literals of
a table are written at once, behind a block that names the table or in
front of a context of its own (`Near`). In the end nothing is owed.
-/
import GridScript.Proofs.Script.Naming

namespace GridScript.Script

-- ============================================================ what is owed

/-- Behind a giving, the tables that names are bound to. -/
def Aliases.give (a : Aliases) : Option Giving → Aliases
  | none => a
  | some (name, some table) => a.rebind name table
  | some (name, none) => a.without name

/-- The literals of tables that are still to be written. -/
def Plan.owed (plan : Plan) (p : Progress) (table : Text) : List Statement :=
  if p.flushed.contains table then [] else plan.data table

theorem Plan.owed_of_flushed (plan : Plan) {p : Progress} {table : Text}
    (h : table ∈ p.flushed) :
    plan.owed p table = [] := if_pos (List.contains_iff_mem.2 h)

theorem Plan.owed_of_not_flushed (plan : Plan) {p : Progress} {table : Text}
    (h : table ∉ p.flushed) : plan.owed p table = plan.data table :=
  if_neg fun hcontains => h (List.contains_iff_mem.1 hcontains)

/-- Only writing literals pays what is owed. -/
theorem owed_writeContext (plan : Plan) (p : Progress) (c : Context) :
    plan.owed (writeContext plan p c).2 = plan.owed p := by
  by_cases hne : c.statements = []
  · rw [writeContext_of_nil hne]
  · rw [writeContext_of_ne hne]
    unfold writeBinding Plan.owed
    split <;> rfl

/-- What is owed once the literals of a table are written. -/
def paid (owed : Text → List Statement) (table : Text) :
    Text → List Statement :=
  fun t => if t = table then [] else owed t

@[simp] theorem paid_self (owed : Text → List Statement) (table : Text) :
    paid owed table table = [] := if_pos rfl

theorem paid_of_ne (owed : Text → List Statement) {table t : Text}
    (h : t ≠ table) :
    paid owed table t = owed t := if_neg h

/-- What is owed still was owed before. -/
theorem owed_of_paid {owed : Text → List Statement} {table t : Text}
    (h : paid owed table t ≠ []) : owed t ≠ [] := by
  intro hnone
  apply h
  unfold paid
  rw [hnone, ite_self]

/-- The table that a block names, if it is no context. -/
def Block.names? : Block → Option Text
  | line _ table => table
  | creation _ table _ => some table
  | declaration _ table _ => some table
  | context .. => none

/-- Is the block a context of the table? -/
def Block.IsOn (table : Text) : Block → Prop
  | context t .. => t = table
  | _ => False

/-- Does the block in front or the one to come refer to the table? A context
does so in front of it. -/
def Near (bindable : List Text) (last : Option Block) (bs : List Block)
    (table : Text) : Prop :=
  (table ∈ bindable ∧ ∃ b ∈ last, b.names? = some table)
    ∨ ∃ b ∈ bs.head?, b.IsOn table

-- ================================================================ courses

/-- A course of writing, from what is bound and owed: the block that came
last and the blocks that are to come, and the pieces that are written from
here on. -/
inductive Course (bindable created : List Text) :
    Option Block → Aliases → (Text → List Statement) → List Block →
      List Piece → Prop where
  /-- Everything is written. -/
  | done {last bound owed} (settled : ∀ t, owed t = []) : Course bindable
    created last bound owed [] []
  /-- A name is bound for the context behind it. -/
  | binding {last bound owed bs c out} (known : c.table ∈ bindable)
      (unbound : bound.lookup (tableAlias c.table) ≠ some c.table)
      (due : owed c.table ≠ [] ∨ ∃ b ∈ bs.head?, b.IsOn c.table)
      (place : Near bindable last bs c.table)
      (rest : Course bindable created last
        (bound.rebind (tableAlias c.table) c.table) owed bs
        (.context c :: out)) :
      Course bindable created last bound owed bs
        (.line (bindingLine c.table) :: .context c :: out)
  /-- The literals of a table are written. -/
  | literals {last bound owed bs table out} (due : owed table ≠ [])
      (place : Near bindable last bs table)
      (headed : table ∈ bindable →
        bound.lookup (tableAlias table) = some table)
      (rest : Course bindable created last bound (paid owed table) bs out) :
      Course bindable created last bound owed bs
        (.context ⟨table, .body, true, owed table⟩ :: out)
  /-- A block is written as its line. -/
  | kept {last bound owed b l bs out} (own : b.line? = some l)
      (rest : Course bindable created (some b)
        (bound.give b.gives?) owed bs out) :
      Course bindable created last bound owed (b :: bs) (.line l :: out)
  /-- A declaration that says nothing new is dropped. -/
  | redundant {last bound owed table l bs out}
      (headed : bound.lookup (tableAlias table) = some table)
      (rest : Course bindable created
        (some (.declaration (tableAlias table) table l)) bound owed bs out) :
      Course bindable created last bound owed
        (.declaration (tableAlias table) table l :: bs) out
  /-- The statements of a context are written. -/
  | context {last bound owed table region statements bs out}
      (filled : statements ≠ [])
      (headed : table ∈ bindable →
        bound.lookup (tableAlias table) = some table)
      (rest : Course bindable created (some (.context table region statements))
        bound owed bs out) :
      Course bindable created last bound owed
        (.context table region statements :: bs)
        (.context ⟨table, region, false, statements⟩ :: out)
  /-- A context without statements is dropped. Its table's literals are
  written by then, if it is not a table that the script creates. -/
  | empty {last bound owed table region bs out}
      (settled : table ∉ created → owed table = [])
      (rest : Course bindable created
        (some (.context table region [])) bound owed bs out) :
      Course bindable created last bound owed
        (.context table region [] :: bs) out

namespace Course

variable {plan : Plan} {p : Progress} {last : Option Block} {bs : List Block}
  {out : List Piece}

/-- In front of a context its name is bound. -/
theorem of_writeContext {c : Context} {owed : Text → List Statement}
    (hne : c.statements ≠ [])
    (due : owed c.table ≠ [] ∨ ∃ b ∈ bs.head?, b.IsOn c.table)
    (place : Near plan.bindable last bs c.table)
    (h : (c.table ∈ plan.bindable →
        (writeContext plan p c).2.bound.lookup (tableAlias c.table)
          = some c.table) →
      Course plan.bindable plan.created last
        (writeContext plan p c).2.bound owed bs (.context c :: out)) :
    Course plan.bindable plan.created last p.bound owed bs
      ((writeContext plan p c).1 ++ out) := by
  by_cases hbound : p.bound.lookup (tableAlias c.table) = some c.table
  · rw [writeContext_of_bound hne hbound] at h ⊢
    exact h fun _ => hbound
  by_cases hbindable : c.table ∈ plan.bindable
  · rw [writeContext_of_not_bound hne hbindable hbound] at h ⊢
    refine .binding hbindable hbound due place (h fun _ => ?_)
    simp [Progress.bind]
  · have hwrite : writeContext plan p c = ([.context c], p) := by
      rw [writeContext_of_ne hne]
      unfold writeBinding
      simp [hbindable]
    rw [hwrite] at h ⊢
    exact h fun hin => absurd hin hbindable

/-- The literals of a table are written where the table is referred to. -/
theorem of_flush {table : Text} (place : Near plan.bindable last bs table)
    (h : Course plan.bindable plan.created last (flush plan p table).2.bound
      (plan.owed (flush plan p table).2) bs out) :
    Course plan.bindable plan.created last p.bound (plan.owed p) bs
      ((flush plan p table).1 ++ out) := by
  by_cases hflushed : table ∈ p.flushed
  · rw [flush_of_flushed hflushed] at h ⊢
    exact h
  have hpaid : plan.owed { p with flushed := table :: p.flushed }
      = paid (plan.owed p) table := by
    funext t
    unfold paid Plan.owed
    by_cases ht : t = table <;> simp [ht]
  have howed : plan.owed p table = plan.data table :=
    plan.owed_of_not_flushed hflushed
  -- a table without literals is noted as flushed too, but then nothing was
  -- owed
  rw [flush_of_not_flushed hflushed] at h ⊢
  by_cases hdata : plan.data table = []
  · have hnothing : paid (plan.owed p) table = plan.owed p := by
      funext t
      unfold paid
      split
      case isTrue ht => rw [ht, howed, hdata]
      case isFalse => rfl
    rw [writeContext_of_nil hdata] at h ⊢
    rw [hpaid, hnothing] at h
    exact h
  · rw [owed_writeContext, hpaid] at h
    have hdue : plan.owed p table ≠ [] := howed ▸ hdata
    refine of_writeContext (p := { p with
        flushed := table :: p.flushed }) hdata (Or.inl hdue)
      place fun headed => ?_
    rw [← howed]
    rw [← howed] at h headed
    exact .literals hdue place headed h

theorem of_settle {table : Text} (place : Near plan.bindable last bs table)
    (h : Course plan.bindable plan.created last (settle plan p table).2.bound
      (plan.owed (settle plan p table).2) bs out) :
    Course plan.bindable plan.created last p.bound (plan.owed p) bs
      ((settle plan p table).1 ++ out) := by
  unfold settle at h ⊢
  by_cases hcreated : table ∈ plan.created
  · rw [if_pos hcreated] at h ⊢
    exact h
  · rw [if_neg hcreated] at h ⊢
    exact of_flush place h

theorem of_settleMention {table : Option Text}
    (place : ∀ t ∈ table, Near plan.bindable last bs t)
    (h : Course plan.bindable plan.created last
      (settleMention plan p table).2.bound
      (plan.owed (settleMention plan p table).2) bs out) :
    Course plan.bindable plan.created last p.bound (plan.owed p) bs
      ((settleMention plan p table).1 ++ out) := by
  cases table with
  | none => exact h
  | some t => exact of_settle (place t rfl) h

/-- What is written for a block is a part of a course. -/
theorem of_writeBlock (hnoticed : p.Noticed plan) (b : Block)
    (hnames : ∀ t ∈ b.names?, t ∈ plan.bindable)
    (h : Course plan.bindable plan.created (some b)
      (writeBlock plan p b).2.bound
      (plan.owed (writeBlock plan p b).2) bs out) :
    Course plan.bindable plan.created last p.bound (plan.owed p) (b :: bs)
      ((writeBlock plan p b).1 ++ out) := by
  have hnear : ∀ t ∈ b.names?, Near plan.bindable (some b) bs t := fun t ht =>
    Or.inl ⟨hnames t ht, b, rfl, ht⟩
  cases b with
  | creation binding table call =>
      rw [writeBlock_creation] at h ⊢
      exact .kept rfl (of_flush (hnear table rfl) h)
  | declaration name table l =>
      by_cases hredundant : name = tableAlias table
        ∧ p.bound.lookup name = some table
      -- the name stands for the table already, so the line is dropped
      · rw [writeBlock_redundant hnoticed l hredundant.1 hredundant.2] at h ⊢
        obtain ⟨rfl, hbound⟩ := hredundant
        exact .redundant hbound (of_settle (hnear table rfl) h)
      -- the line gives the name to the table
      · rw [writeBlock_declaration hnoticed l hredundant] at h ⊢
        exact .kept rfl (of_settle (hnear table rfl) h)
  | line l table =>
      rw [writeBlock_line hnoticed] at h ⊢
      have hline := of_settleMention hnear h
      have hgive : (p.afterLine l).bound
          = p.bound.give (Block.line l table).gives? := by
        simp only [Progress.afterLine, Block.gives?]
        cases marginTarget? l <;> rfl
      have howed : plan.owed (p.afterLine l) = plan.owed p := by
        unfold Progress.afterLine
        cases marginTarget? l <;> rfl
      rw [hgive, howed] at hline
      exact .kept rfl hline
  | context table region statements =>
      rw [writeBlock_context hnoticed] at h ⊢
      rw [List.append_assoc]
      have hon : ∃ b ∈ (Block.context table region statements :: bs).head?,
          b.IsOn table :=
        ⟨_, rfl, rfl⟩
      refine of_settle (Or.inr hon) ?_
      by_cases hempty : statements = []
      -- a context of literals alone leaves nothing behind
      · subst hempty
        rw [writeContext_of_nil rfl] at h ⊢
        exact .empty
          (fun hcreated => plan.owed_of_flushed
            ((settled_settle table).resolve_left hcreated)) h
      · refine of_writeContext hempty (Or.inr hon) (Or.inr hon) fun headed =>
          .context hempty headed ?_
        rw [owed_writeContext] at h
        exact h

/-- Blocks are written in a course. -/
theorem of_writeBlocks (hnoticed : p.Noticed plan)
    (hnames : ∀ b ∈ bs, ∀ t ∈ b.names?, t ∈ plan.bindable)
    (hsettled : ∀ t, plan.owed (writeBlocks plan p bs).2 t = []) :
    Course plan.bindable plan.created last p.bound (plan.owed p) bs
      (writeBlocks plan p bs).1 := by
  induction bs generalizing p last with
  | nil => exact .done hsettled
  | cons b bs ih =>
      obtain ⟨hb, hbs⟩ := List.forall_mem_cons.1 hnames
      exact of_writeBlock hnoticed b hb
        (ih (noticed_writeBlock hnoticed b) hbs hsettled)

end Course

-- ======================================================== the whole course

/-- What a block names is known behind it. -/
theorem mem_known_blockOf {n : Names} {c : Chunk} {table : Text}
    (h : (blockOf n c).1.names? = some table) :
    table ∈ (blockOf n c).2.known := by
  cases c with
  | context header body => cases h
  | line l =>
      change (blockOf n (Piece.line l).chunk).1.names? = some table at h
      show table ∈ (blockOf n (Piece.line l).chunk).2.known
      rcases Piece.cases_line l
        with ⟨c, hc⟩ | ⟨name, t, hd⟩ | ⟨hcreation, hdeclaration⟩
      · rw [blockOf_creation hc] at h ⊢
        injection h with h
        exact h ▸ List.mem_insert_self
      · rw [blockOf_declaration hd] at h ⊢
        injection h with h
        exact h ▸ List.mem_insert_self
      · rw [blockOf_line hcreation hdeclaration] at h ⊢
        have hmention : mention? n.aliases (tokens l) = some table := h
        unfold Names.afterLine
        rw [hmention]
        cases marginTarget? l <;> exact List.mem_insert_self

theorem mem_known_blocksOf {n : Names} {cs : List Chunk} {b : Block}
    (hb : b ∈ (blocksOf n cs).1) {table : Text} (h : b.names? = some table) :
    table ∈ (blocksOf n cs).2.known := by
  induction cs generalizing n with
  | nil => cases hb
  | cons c cs ih =>
      rw [blocksOf] at hb ⊢
      rcases List.mem_cons.1 hb with rfl | hb
      · exact known_subset_blocksOf _ cs (mem_known_blockOf h)
      · exact ih hb

theorem names?_withoutData (b : Block) : b.withoutData.names? = b.names? := by
  cases b with
  | context table region statements => cases region <;> rfl
  | _ => rfl

/-- The tables that blocks create. -/
def createdBy (bs : List Block) : List Text :=
  (bs.filterMap Block.created?).eraseDups

theorem created_planFor (bs : List Block) (bindable : List Text) :
    (planFor bs bindable).created = createdBy bs := rfl

/-- A script is written in a course. -/
theorem course_parseBlocks (ls : List Text) :
    Course (parseBlocks ls).2 (createdBy (parseBlocks ls).1) none []
      (dataOf (parseBlocks ls).1)
      ((parseBlocks ls).1.map Block.withoutData)
      (writeBlocks (planFor (parseBlocks ls).1 (parseBlocks ls).2) .none
        ((parseBlocks ls).1.map Block.withoutData)).1 := by
  obtain ⟨blocks, bindable, hparse⟩ : ∃ bs ts, parseBlocks ls = (bs, ts) :=
    ⟨_, _, rfl⟩
  rw [hparse]
  have hnames : ∀ b ∈ blocks.map Block.withoutData, ∀ t ∈ b.names?,
      t ∈ bindable := by
    intro b' hb' t ht
    obtain ⟨b, hb, rfl⟩ := List.mem_map.1 hb'
    rw [names?_withoutData] at ht
    cases hparse
    exact List.mem_append_left _ (mem_known_blocksOf hb ht)
  have hsettled : ∀ t, (planFor blocks bindable).owed
      (writeBlocks (planFor blocks bindable) .none
        (blocks.map Block.withoutData)).2 t = [] := by
    intro t
    by_cases hdata : dataOf blocks t = []
    · unfold Plan.owed
      split
      case isTrue => rfl
      case isFalse => exact hdata
    · exact Plan.owed_of_flushed _ (mem_flushed_of_dataOf bindable hdata)
  have howed : (planFor blocks bindable).owed .none = dataOf blocks := by
    funext t
    exact Plan.owed_of_not_flushed _ List.not_mem_nil
  have hnoticed : Progress.none.Noticed (planFor blocks bindable) :=
    fun t ht => by cases ht
  have hcourse : Course bindable _ none []
      ((planFor blocks bindable).owed .none) _ _ :=
    Course.of_writeBlocks hnoticed hnames hsettled
  rw [howed, created_planFor] at hcourse
  exact hcourse

/-- A script is written in a course, and its pieces are joined. -/
theorem exists_course (ls : List Text) :
    ∃ out, piecesOf (parseBlocks ls).1 (parseBlocks ls).2 = joinPieces out
      ∧ Course (parseBlocks ls).2 (createdBy (parseBlocks ls).1) none []
          (dataOf (parseBlocks ls).1)
          ((parseBlocks ls).1.map Block.withoutData) out :=
  ⟨_, piecesOf_eq _ _, course_parseBlocks ls⟩

theorem told_parseBlocks (ls : List Text) :
    ∀ b ∈ (parseBlocks ls).1.map Block.withoutData, b.Told := by
  intro b' hb'
  obtain ⟨b, hb, rfl⟩ := List.mem_map.1 hb'
  exact told_withoutData.2 (told_blocksOf .none (chunks ls) b hb)

/-- The pieces of the normal form of a log. -/
def logPieces (log : List Text) : List Piece :=
  if flatLines log = [] ∨ flatLines log = [[]] then []
  else piecesOf (parseBlocks (flatLines log)).1 (parseBlocks (flatLines log)).2

theorem normalize_eq (log : List Text) :
    normalize log = (logPieces log).flatMap Piece.render := by
  unfold normalize logPieces normalLines
  simp only
  split <;> rfl

end GridScript.Script
