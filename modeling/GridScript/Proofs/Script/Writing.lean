/-
Reading and writing in one pass. The normal form of a script is made in two
passes over its blocks: names are resolved in the first, and the blocks are
written in the second. Neither pass looks ahead, the plan apart, so both
can be done for one piece at a time; `Stage.step` does so, and a law about
the normal form becomes a law about one step and an induction.

# When a table's literals are written

The literals of a table that the script creates are written with its
creation. Those of any other table are written at its first reference, and
`Progress.Noticed` says what this comes to: a table that has been seen is
created by the script or has its literals written. So the question whether
a reference is the first can be put aside: `settle` asks only whether the
literals are written, and the two agree (`flushFirst_eq`).
-/
import GridScript.Proofs.Script.Pieces

namespace GridScript.Script

-- =============================================================== aliases

namespace Aliases

@[simp] theorem lookup_without (a : Aliases) (name name' : Text) :
    (a.without name).lookup name' = if name' = name then none
      else a.lookup name' := by
  induction a with
  | nil => simp [without]
  | cons e a ih =>
      obtain ⟨key, table⟩ := e
      unfold without at ih ⊢
      by_cases hkey : key = name
      · rw [List.filter_cons_of_neg (by simp [hkey]), ih]
        by_cases hname : name' = name
        · rw [if_pos hname, if_pos hname]
        · have hne : (name' == key) = false := by simp [hkey, hname]
          rw [if_neg hname, if_neg hname, List.lookup_cons, hne]
      · rw [List.filter_cons_of_pos (by simp [hkey]), List.lookup_cons,
          List.lookup_cons, ih]
        by_cases hname : name' = key
        · have hne : name' ≠ name := by rw [hname]; exact hkey
          simp [hname, hkey]
        · have hne : (name' == key) = false := by simp [hname]
          rw [hne]

@[simp] theorem lookup_rebind (a : Aliases) (name table name' : Text) :
    (a.rebind name table).lookup name' = if name' = name then some table
      else a.lookup name' := by
  unfold rebind
  rw [List.lookup_cons, lookup_without]
  by_cases hname : name' = name
  · simp [hname]
  · have hne : (name' == name) = false := by simp [hname]
    rw [hne, if_neg hname, if_neg hname]

end Aliases

-- =================================================== literals of a table

/-- The literals of the table are written, or the script creates it and
they will be written there. -/
def Progress.Settled (plan : Plan) (p : Progress) (table : Text) : Prop :=
  table ∈ plan.created ∨ table ∈ p.flushed

/-- Every table that was seen is settled. -/
def Progress.Noticed (plan : Plan) (p : Progress) : Prop :=
  ∀ table ∈ p.seen, p.Settled plan table

/-- Writes the literals of a table, unless they are written or the script
creates it. -/
def settle (plan : Plan) (p : Progress) (table : Text) : Written :=
  if table ∈ plan.created then ([], p) else flush plan p table

theorem settle_of_settled {plan : Plan} {p : Progress} {table : Text}
    (h : p.Settled plan table) : settle plan p table = ([], p) := by
  unfold settle
  split
  case isTrue => rfl
  case isFalse hcreated =>
      have hflushed := h.resolve_left hcreated
      unfold flush
      rw [if_pos (by simpa using hflushed)]

/-- The first reference is the one that settles. -/
theorem flushFirst_eq {plan : Plan} {p : Progress} (h : p.Noticed plan)
    (table : Text) :
    flushFirst plan p (some table) = settle plan p table := by
  unfold flushFirst
  simp only
  by_cases hseen : table ∈ p.seen
  · rw [settle_of_settled (h table hseen), if_neg]
    simp [Progress.isFirst, hseen]
  · unfold settle
    by_cases hcreated : table ∈ plan.created
    · rw [if_pos hcreated, if_neg]
      simp [Progress.isFirst, hcreated]
    · rw [if_neg hcreated, if_pos]
      simp [Progress.isFirst, hcreated, hseen]

-- ================================================================ stages

/-- How far a script is read and written. -/
structure Stage where
  names : Names
  progress : Progress

namespace Stage

/-- Nothing is read or written. -/
def start : Stage := ⟨.none, .none⟩

/-- Reads and writes one piece. -/
def step (plan : Plan) (s : Stage) (x : Piece) : List Piece × Stage :=
  let (block, names) := blockOf s.names x.chunk
  let (written, progress) := writeBlock plan s.progress block.withoutData
  (written, ⟨names, progress.see block.reference?⟩)

/-- Reads and writes pieces in order. -/
def run (plan : Plan) (s : Stage) : List Piece → List Piece × Stage
  | [] => ([], s)
  | x :: xs =>
    let (written, s) := s.step plan x
    let (rest, s) := run plan s xs
    (written ++ rest, s)

variable {plan : Plan} {s : Stage}

theorem run_cons (x : Piece) (xs : List Piece) :
    s.run plan (x :: xs)
      = ((s.step plan x).1 ++ ((s.step plan x).2.run plan xs).1,
          ((s.step plan x).2.run plan xs).2) := rfl

theorem run_append (xs ys : List Piece) :
    s.run plan (xs ++ ys)
      = ((s.run plan xs).1 ++ ((s.run plan xs).2.run plan ys).1,
          ((s.run plan xs).2.run plan ys).2) := by
  induction xs generalizing s with
  | nil => rfl
  | cons x xs ih =>
      rw [List.cons_append, run_cons, run_cons, ih, List.append_assoc]

/-- The names that are known after pieces are those of the first pass. -/
theorem names_run (xs : List Piece) :
    (s.run plan xs).2.names = (blocksOf s.names (xs.map Piece.chunk)).2 := by
  induction xs generalizing s with
  | nil => rfl
  | cons x xs ih =>
      rw [run_cons]
      exact ih

theorem reference?_withoutData (b : Block) :
    b.withoutData.reference? = b.reference? := by
  cases b with
  | context table region statements => cases region <;> rfl
  | _ => rfl

/-- What is written is what the second pass writes. -/
theorem writeBlocks_blocksOf (xs : List Piece) :
    writeBlocks plan s.progress
        ((blocksOf s.names (xs.map Piece.chunk)).1.map Block.withoutData)
      = ((s.run plan xs).1, (s.run plan xs).2.progress) := by
  induction xs generalizing s with
  | nil => rfl
  | cons x xs ih =>
      have hrest := ih (s := (s.step plan x).2)
      rw [run_cons]
      simp only [List.map_cons, blocksOf, writeBlocks, reference?_withoutData]
      unfold step at hrest ⊢
      simp only at hrest ⊢
      rw [hrest]

end Stage

-- ===================================================== what writing changes

namespace Progress

/-- What writing does besides binding names: more literals are written, and
no reference is noted. -/
structure Extends (p p' : Progress) : Prop where
  seen : p'.seen = p.seen
  flushed : p.flushed ⊆ p'.flushed

theorem Extends.refl (p : Progress) : p.Extends p := ⟨rfl, List.Subset.refl _⟩

theorem Extends.trans {p q r : Progress} (hpq : p.Extends q)
    (hqr : q.Extends r) : p.Extends r :=
  ⟨hqr.seen.trans hpq.seen, List.Subset.trans hpq.flushed hqr.flushed⟩

theorem Extends.settled {plan : Plan} {p p' : Progress} (h : p.Extends p')
    {table : Text} (hsettled : p.Settled plan table) : p'.Settled plan table :=
  hsettled.imp_right fun hflushed => h.flushed hflushed

theorem Extends.noticed {plan : Plan} {p p' : Progress} (h : p.Extends p')
    (hnoticed : p.Noticed plan) : p'.Noticed plan := by
  intro table hseen
  rw [h.seen] at hseen
  exact h.settled (hnoticed table hseen)

/-- A settled table can be noted. -/
theorem Noticed.see {plan : Plan} {p : Progress} (h : p.Noticed plan)
    {table : Option Text} (hsettled : ∀ t ∈ table, p.Settled plan t) :
    (p.see table).Noticed plan := by
  cases table with
  | none => exact h
  | some t =>
      intro t' ht'
      rcases List.mem_insert_iff.1 ht' with rfl | ht'
      · exact hsettled t' rfl
      · exact h t' ht'

end Progress

variable {plan : Plan} {p : Progress}

theorem extends_bind (name table : Text) : p.Extends (p.bind name table) :=
  ⟨rfl, List.Subset.refl _⟩

theorem extends_writeBinding (table : Text) :
    p.Extends (writeBinding plan p table).2 := by
  unfold writeBinding
  split
  case isTrue => exact ⟨rfl, List.Subset.refl _⟩
  case isFalse => exact .refl p

theorem writeContext_of_nil {c : Context} (h : c.statements = []) :
    writeContext plan p c = ([], p) := by
  unfold writeContext
  rw [if_pos (by simpa using h)]

theorem writeContext_of_ne {c : Context} (h : c.statements ≠ []) :
    writeContext plan p c
      = ((writeBinding plan p c.table).1 ++ [.context c],
        (writeBinding plan p c.table).2) := by
  unfold writeContext
  rw [if_neg (by simpa using h)]

theorem writeContext_of_bound {c : Context} (hne : c.statements ≠ [])
    (hbound : p.bound.lookup (tableAlias c.table) = some c.table) :
    writeContext plan p c = ([.context c], p) := by
  unfold writeContext writeBinding
  rw [if_neg (by simpa using hne)]
  simp [Progress.isBound, hbound]

theorem writeContext_of_not_bound {c : Context} (hne : c.statements ≠ [])
    (hbindable : c.table ∈ plan.bindable)
    (hbound : ¬p.bound.lookup (tableAlias c.table) = some c.table) :
    writeContext plan p c
      = ([.line (bindingLine c.table), .context c],
        p.bind (tableAlias c.table) c.table) := by
  unfold writeContext writeBinding
  rw [if_neg (by simpa using hne)]
  simp [Progress.isBound, hbound, hbindable]

theorem flush_of_flushed {table : Text} (h : table ∈ p.flushed) :
    flush plan p table = ([], p) := by
  unfold flush
  rw [if_pos (by simpa using h)]

theorem flush_of_not_flushed {table : Text} (h : table ∉ p.flushed) :
    flush plan p table
      = writeContext plan { p with flushed := table :: p.flushed }
          ⟨table, .body, true, plan.data table⟩ := by
  unfold flush
  rw [if_neg (by simpa using h)]

theorem extends_writeContext (c : Context) :
    p.Extends (writeContext plan p c).2 := by
  unfold writeContext
  split
  case isTrue => exact .refl p
  case isFalse => exact extends_writeBinding c.table

theorem extends_flush (table : Text) : p.Extends (flush plan p table).2 := by
  unfold flush
  split
  case isTrue => exact .refl p
  case isFalse =>
      have hmore : p.Extends { p with flushed := table :: p.flushed } :=
        ⟨rfl, List.subset_cons_self table p.flushed⟩
      exact hmore.trans (extends_writeContext _)

/-- Once literals are written they are. -/
theorem mem_flushed_flush (table : Text) :
    table ∈ (flush plan p table).2.flushed := by
  unfold flush
  split
  case isTrue h => simpa using h
  case isFalse => exact (extends_writeContext _).flushed List.mem_cons_self

theorem extends_settle (table : Text) : p.Extends (settle plan p table).2 := by
  unfold settle
  split
  case isTrue => exact .refl p
  case isFalse => exact extends_flush table

theorem settled_settle (table : Text) :
    (settle plan p table).2.Settled plan table := by
  unfold settle
  split
  case isTrue h => exact Or.inl h
  case isFalse => exact Or.inr (mem_flushed_flush table)

-- ================================================================ blocks

/-- Writes the literals of the table that a line mentions. -/
def settleMention (plan : Plan) (p : Progress) : Option Text → Written
  | some table => settle plan p table
  | none => ([], p)

theorem flushFirst_eq_settleMention (h : p.Noticed plan)
    (table : Option Text) :
    flushFirst plan p table = settleMention plan p table := by
  cases table with
  | none => rfl
  | some table => exact flushFirst_eq h table

theorem extends_settleMention (table : Option Text) :
    p.Extends (settleMention plan p table).2 := by
  cases table with
  | none => exact .refl p
  | some table => exact extends_settle table

theorem settled_settleMention (table : Option Text) :
    ∀ t ∈ table, (settleMention plan p table).2.Settled plan t := by
  intro t ht
  rw [Option.mem_def.1 ht]
  exact settled_settle t

/-- The progress behind a line at the margin, which may assign to a name. -/
def Progress.afterLine (p : Progress) (l : Text) : Progress :=
  match marginTarget? l with
  | some name => p.unbind name
  | Option.none => p

theorem extends_afterLine (l : Text) : p.Extends (p.afterLine l) := by
  unfold Progress.afterLine
  split <;> exact ⟨rfl, List.Subset.refl _⟩

/-- The names behind a line that declares none. -/
def Names.afterLine (n : Names) (l : Text) (table : Option Text) : Names :=
  let n := match table with
    | some id => n.know id
    | Option.none => n
  match marginTarget? l with
  | some name => n.assign name
  | Option.none => n

theorem aliases_afterLine (n : Names) (l : Text) (table : Option Text) :
    (n.afterLine l table).aliases = n.aliases := by
  unfold Names.afterLine
  cases table <;> cases marginTarget? l <;> rfl

theorem writeBlock_creation (binding : Option Text) (table call : Text) :
    writeBlock plan p (.creation binding table call)
      = (.line (binding.getD (tableAlias table) ++ " = ".toList ++ call)
            :: (flush plan (p.bind (binding.getD (tableAlias table)) table)
              table).1,
          (flush plan (p.bind (binding.getD (tableAlias table)) table)
            table).2) := rfl

theorem writeBlock_redundant (h : p.Noticed plan) {name table : Text}
    (l : Text) (hname : name = tableAlias table)
    (hbound : p.bound.lookup name = some table) :
    writeBlock plan p (.declaration name table l) = settle plan p table := by
  have hredundant : (name == tableAlias table && p.isBound name table)
      = true := by
    simp [Progress.isBound, hname, ← hbound]
  rw [← flushFirst_eq h]
  simp only [writeBlock, hredundant, if_true, List.nil_append]

theorem writeBlock_declaration (h : p.Noticed plan) {name table : Text}
    (l : Text)
    (hnew : ¬(name = tableAlias table ∧ p.bound.lookup name = some table)) :
    writeBlock plan p (.declaration name table l)
      = (.line l :: (settle plan (p.bind name table) table).1,
          (settle plan (p.bind name table) table).2) := by
  have hredundant : (name == tableAlias table && p.isBound name table)
      = false := by
    rw [Bool.eq_false_iff]
    intro hboth
    rw [Bool.and_eq_true] at hboth
    exact hnew ⟨eq_of_beq hboth.1, eq_of_beq hboth.2⟩
  have hbind : (p.bind name table).Noticed plan := h
  rw [← flushFirst_eq hbind]
  simp only [writeBlock, hredundant, Bool.false_eq_true, if_false,
    List.singleton_append]

theorem writeBlock_line (h : p.Noticed plan) (l : Text) (table : Option Text) :
    writeBlock plan p (.line l table)
      = (.line l :: (settleMention plan (p.afterLine l) table).1,
          (settleMention plan (p.afterLine l) table).2) := by
  rw [← flushFirst_eq_settleMention ((extends_afterLine l).noticed h)]
  rfl

theorem writeBlock_context (h : p.Noticed plan) (table : Text)
    (region : Region) (statements : List Statement) :
    writeBlock plan p (.context table region statements)
      = ((settle plan p table).1
            ++ (writeContext plan (settle plan p table).2
              ⟨table, region, false, statements⟩).1,
          (writeContext plan (settle plan p table).2
            ⟨table, region, false, statements⟩).2) := by
  rw [← flushFirst_eq h]
  rfl

theorem extends_writeBlock (h : p.Noticed plan) (b : Block) :
    p.Extends (writeBlock plan p b).2 := by
  cases b with
  | creation binding table call =>
      rw [writeBlock_creation]
      exact (extends_bind _ table).trans (extends_flush table)
  | declaration name table l =>
      by_cases hredundant : name = tableAlias table
        ∧ p.bound.lookup name = some table
      · rw [writeBlock_redundant h l hredundant.1 hredundant.2]
        exact extends_settle table
      · rw [writeBlock_declaration h l hredundant]
        exact (extends_bind name table).trans (extends_settle table)
  | line l table =>
      rw [writeBlock_line h]
      exact (extends_afterLine l).trans (extends_settleMention table)
  | context table region statements =>
      rw [writeBlock_context h]
      exact (extends_settle table).trans (extends_writeContext _)

/-- A block settles what it refers to. -/
theorem settled_writeBlock (h : p.Noticed plan) (b : Block) :
    ∀ t ∈ b.reference?, (writeBlock plan p b).2.Settled plan t := by
  cases b with
  | creation binding table call =>
      intro t ht
      cases ht
  | declaration name table l =>
      rintro t ⟨⟩
      by_cases hredundant : name = tableAlias table
        ∧ p.bound.lookup name = some table
      · rw [writeBlock_redundant h l hredundant.1 hredundant.2]
        exact settled_settle table
      · rw [writeBlock_declaration h l hredundant]
        exact settled_settle table
  | line l table =>
      rw [writeBlock_line h]
      exact settled_settleMention table
  | context table region statements =>
      rintro t ⟨⟩
      rw [writeBlock_context h]
      exact (extends_writeContext _).settled (settled_settle table)

namespace Stage

variable {s : Stage}

theorem noticed_start (plan : Plan) : start.progress.Noticed plan :=
  fun table h => by cases h

/-- A step settles what its piece refers to. -/
theorem settled_step (h : s.progress.Noticed plan) {x : Piece} {table : Text}
    (hreference : (blockOf s.names x.chunk).1.reference? = some table) :
    (s.step plan x).2.progress.Settled plan table := by
  rw [← reference?_withoutData] at hreference
  exact settled_writeBlock h _ table hreference

theorem settled_step_of_settled (h : s.progress.Noticed plan) {table : Text}
    (hsettled : s.progress.Settled plan table) (x : Piece) :
    (s.step plan x).2.progress.Settled plan table :=
  (extends_writeBlock h _).settled hsettled

theorem noticed_step (h : s.progress.Noticed plan) (x : Piece) :
    (s.step plan x).2.progress.Noticed plan := by
  have hwritten :=
    (extends_writeBlock h (blockOf s.names x.chunk).1.withoutData).noticed h
  refine hwritten.see ?_
  intro t ht
  exact settled_step h ht

theorem noticed_run (h : s.progress.Noticed plan) (xs : List Piece) :
    (s.run plan xs).2.progress.Noticed plan := by
  induction xs generalizing s with
  | nil => exact h
  | cons x xs ih => exact ih (noticed_step h x)

end Stage

-- ======================================================= resolved headers

/-- The names that a context is written under stands for its table. -/
def Piece.ResolvesIn (n : Names) : Piece → Prop
  | line _ => True
  | context c => n.aliases.lookup (tableAlias c.table) = some c.table

/-- Every context is written where its table's local name stands for the
table. -/
def Resolved (n : Names) : List Piece → Prop
  | [] => True
  | x :: xs => x.ResolvesIn n ∧ Resolved (blockOf n x.chunk).2 xs

theorem resolved_append {n : Names} {xs ys : List Piece} :
    Resolved n (xs ++ ys)
      ↔ Resolved n xs ∧ Resolved (blocksOf n (xs.map Piece.chunk)).2 ys := by
  induction xs generalizing n with
  | nil => exact ⟨fun h => ⟨trivial, h⟩, fun h => h.2⟩
  | cons x xs ih =>
      show _ ∧ Resolved _ (xs ++ ys) ↔ (_ ∧ Resolved _ xs) ∧ Resolved _ ys
      rw [ih, and_assoc]
      rfl

/-- Parts that are resolved wherever they stand are resolved in a row. -/
theorem resolved_flatMap {α : Type} {f : α → List Piece}
    (h : ∀ n a, Resolved n (f a)) (n : Names) (as : List α) :
    Resolved n (as.flatMap f) := by
  induction as generalizing n with
  | nil => trivial
  | cons a as ih =>
      rw [List.flatMap_cons, resolved_append]
      exact ⟨h n a, ih _⟩

/-- The statements of a context that stay where they are. -/
def Context.kept (c : Context) : List Statement :=
  if c.region = .body then c.statements.filter fun s => !s.isData
  else c.statements

theorem blockOf_context {n : Names} {c : Context}
    (h : n.aliases.lookup (tableAlias c.table) = some c.table) :
    blockOf n (Piece.context c).chunk
      = (.context c.table c.region c.statements, n.know c.table) := by
  unfold Piece.chunk blockOf resolve
  simp only [h]

theorem blockOf_creation {n : Names} {l : Text} {c : Creation}
    (h : creation? (tokens l) = some c) :
    blockOf n (Piece.line l).chunk
      = (.creation c.binding c.table c.call,
          n.bind (c.binding.getD (tableAlias c.table)) c.table) := by
  unfold Piece.chunk blockOf blockOfLine
  simp only [h]

theorem blockOf_declaration {n : Names} {l name table : Text}
    (h : declaration? (tokens l) = some (name, table)) :
    blockOf n (Piece.line l).chunk
      = (.declaration name table (Text.trimEnd l), n.bind name table) := by
  unfold Piece.chunk blockOf blockOfLine
  simp only [creation?_of_declaration? h, h]

theorem blockOf_line {n : Names} {l : Text}
    (hcreation : creation? (tokens l) = none)
    (hdeclaration : declaration? (tokens l) = none) :
    blockOf n (Piece.line l).chunk
      = (.line l (mention? n.aliases (tokens l)),
          n.afterLine l (mention? n.aliases (tokens l))) := by
  unfold Piece.chunk blockOf blockOfLine
  simp only [hcreation, hdeclaration]
  rfl

/-- A piece is a creation, a declaration, another line or a context. -/
theorem Piece.cases_line (l : Text) :
    (∃ c, creation? (tokens l) = some c)
      ∨ (∃ name table, declaration? (tokens l) = some (name, table))
      ∨ (creation? (tokens l) = none ∧ declaration? (tokens l) = none) := by
  cases hcreation : creation? (tokens l) with
  | some c => exact Or.inl ⟨c, rfl⟩
  | none =>
      cases hdeclaration : declaration? (tokens l) with
      | some found => exact Or.inr (Or.inl ⟨found.1, found.2, rfl⟩)
      | none => exact Or.inr (Or.inr ⟨rfl, rfl⟩)

theorem withoutData_context (c : Context) :
    (Block.context c.table c.region c.statements).withoutData
      = .context c.table c.region c.kept := by
  obtain ⟨table, region, gathered, statements⟩ := c
  cases region <;> rfl

namespace Stage

variable {s : Stage}

/-- A context settles its table and leaves what is no literal. -/
theorem step_context (hnoticed : s.progress.Noticed plan) {c : Context}
    (h : s.names.aliases.lookup (tableAlias c.table) = some c.table) :
    s.step plan (.context c)
      = ((settle plan s.progress c.table).1
            ++ (writeContext plan (settle plan s.progress c.table).2
                  ⟨c.table, c.region, false, c.kept⟩).1,
          ⟨s.names.know c.table,
            (writeContext plan (settle plan s.progress c.table).2
              ⟨c.table, c.region, false, c.kept⟩).2.see (some c.table)⟩) := by
  unfold step
  simp only [blockOf_context h, withoutData_context,
    writeBlock_context hnoticed]
  rfl

/-- A creation binds its name and is followed by the table's literals. -/
theorem step_creation {l : Text} {c : Creation}
    (h : creation? (tokens l) = some c) :
    s.step plan (.line l)
      = (.line (c.binding.getD (tableAlias c.table) ++ " = ".toList ++ c.call)
            :: (flush plan
                  (s.progress.bind
                    (c.binding.getD (tableAlias c.table)) c.table)
                  c.table).1,
          ⟨s.names.bind (c.binding.getD (tableAlias c.table)) c.table,
            (flush plan
              (s.progress.bind (c.binding.getD (tableAlias c.table)) c.table)
              c.table).2⟩) := by
  unfold step
  rw [blockOf_creation h]
  rfl

/-- A declaration that says nothing new settles its table. -/
theorem step_redundant (hnoticed : s.progress.Noticed plan)
    {l name table : Text} (h : declaration? (tokens l) = some (name, table))
    (hname : name = tableAlias table)
    (hbound : s.progress.bound.lookup name = some table) :
    s.step plan (.line l)
      = ((settle plan s.progress table).1,
          ⟨s.names.bind name table,
            (settle plan s.progress table).2.see (some table)⟩) := by
  unfold step
  rw [blockOf_declaration h, ← writeBlock_redundant hnoticed
    (Text.trimEnd l) hname hbound]
  rfl

/-- Any other declaration binds its name first. -/
theorem step_declaration (hnoticed : s.progress.Noticed plan)
    {l name table : Text} (h : declaration? (tokens l) = some (name, table))
    (hnew : ¬(name = tableAlias table
      ∧ s.progress.bound.lookup name = some table)) :
    s.step plan (.line l)
      = (.line (Text.trimEnd l)
          :: (settle plan (s.progress.bind name table) table).1,
            ⟨s.names.bind name table,
              (settle plan (s.progress.bind name table) table).2.see
                (some table)⟩) := by
  have hwrite := writeBlock_declaration hnoticed (Text.trimEnd l) hnew
  unfold step
  rw [blockOf_declaration h]
  simp only [Block.withoutData, hwrite]
  rfl

/-- Any other line stays, and settles the table that it mentions. -/
theorem step_line (hnoticed : s.progress.Noticed plan) {l : Text}
    (hcreation : creation? (tokens l) = none)
    (hdeclaration : declaration? (tokens l) = none) :
    s.step plan (.line l)
      = (.line l
            :: (settleMention plan (s.progress.afterLine l)
                  (mention? s.names.aliases (tokens l))).1,
          ⟨s.names.afterLine l (mention? s.names.aliases (tokens l)),
            (settleMention plan (s.progress.afterLine l)
              (mention? s.names.aliases (tokens l))).2.see
                (mention? s.names.aliases (tokens l))⟩) := by
  have hwrite :=
    writeBlock_line hnoticed l (mention? s.names.aliases (tokens l))
  unfold step
  rw [blockOf_line hcreation hdeclaration]
  simp only [Block.withoutData, hwrite]
  rfl

end Stage

end GridScript.Script
