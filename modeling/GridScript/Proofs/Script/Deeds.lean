/-
What a log does: the statements of its contexts are written to objects,
and lines call methods of objects. Which object it is, a name says, and
names are read from the top: what a name was given to last is what it
stands for, be it a table or something else. A header's name that the log
never gives away is taken for the identifier of a table. Any other name
that is not given away stands for an object of its own.

# Steady logs

The normal form puts the local name of a table for any other name of it,
binds local names where it needs them, and moves literals. In a steady log
none of this is seen (`SteadyChunks`): a header's name that was given to a
table still stands for it, one that stands for something else is left
alone, and a name that a method is called of stands for the table, if there
is one, that it may have been bound to since it was given away
(`Block.pending`). If it is a header's name that is never given away, it is
called only where it has been bound (`Block.headed`).

In blocks, names are resolved already. `deedsOf_eq` says that in a steady
log they are resolved to what they stand for: a table has one object for
all of its contexts (`home`).
-/
import GridScript.Proofs.Script.Conservation

namespace GridScript.Script

-- =============================================================== objects

/-- What a name stands for: a table, or something else that the name was
given to, told apart by how often. -/
inductive Object where
  | table (table : Text)
  | other (name : Text) (turn : Nat)
  deriving DecidableEq

/-- How often a name was given to something that is no table. -/
def turns (gs : List Giving) (name : Text) : Nat := gs.count (name, none)

theorem turns_append (gs hs : List Giving) (name : Text) :
    turns (gs ++ hs) name = turns gs name + turns hs name :=
  List.count_append

/-- A name that is not given away is given to nothing else. -/
theorem turns_of_standing?_eq_none {gs : List Giving} {name : Text}
    (h : standing? gs name = none) : turns gs name = 0 := by
  rw [standing?_eq_none_iff] at h
  exact List.count_eq_zero.2 fun hmem => h _ hmem rfl

/-- What was given away stays so. -/
theorem standing?_append_ne_none {gs : List Giving} {name : Text}
    (h : standing? gs name ≠ none) (hs : List Giving) :
    standing? (gs ++ hs) name ≠ none := by
  rw [standing?_append]
  cases standing? hs name with
  | none => exact h
  | some target => exact Option.some_ne_none target

/-- The name that a header gives. -/
def HeaderTable.name? : HeaderTable → Option Text
  | name n => some n
  | id _ => none

/-- The name that a chunk's header gives. -/
def Chunk.headerName? : Chunk → Option Text
  | context header _ => header.table.name?
  | line _ => none

/-- The names of headers that chunks never give away. -/
def freeNames (cs : List Chunk) : List Text :=
  (cs.filterMap Chunk.headerName?).filter fun name =>
    (standing? (givingsIn cs) name).isNone

theorem mem_freeNames_iff {cs : List Chunk} {name : Text} :
    name ∈ freeNames cs
      ↔ (∃ c ∈ cs, c.headerName? = some name)
        ∧ standing? (givingsIn cs) name = none := by
  unfold freeNames
  rw [List.mem_filter, List.mem_filterMap, Option.isNone_iff_eq_none]

/-- What a name stands for behind givings, where some names are free. -/
def denoted (free : List Text) (gs : List Giving) (name : Text) : Object :=
  match standing? gs name with
  | some (some table) => .table table
  | some none => .other name (turns gs name)
  | none => if free.contains name then .table name else .other name 0

section

variable {free : List Text} {gs : List Giving} {name : Text}

theorem denoted_of_standing? {table : Text}
    (h : standing? gs name = some (some table)) :
    denoted free gs name = .table table := by
  unfold denoted
  rw [h]

theorem denoted_of_standing?_other (h : standing? gs name = some none) :
    denoted free gs name = .other name (turns gs name) := by
  unfold denoted
  rw [h]

theorem denoted_of_free (h : standing? gs name = none) (hfree : name ∈ free) :
    denoted free gs name = .table name := by
  unfold denoted
  rw [h]
  exact if_pos (List.contains_iff_mem.2 hfree)

end

/-- What a header's table stands for behind givings. -/
def HeaderTable.denoted (free : List Text) (gs : List Giving) :
    HeaderTable → Object
  | id table => .table table
  | name n => Script.denoted free gs n

-- ================================================================= deeds

/-- What a log does at one place. -/
inductive Deed where
  /-- Writes a statement to a region of an object. -/
  | write (object : Object) (region : Region) (statement : Statement)
  /-- Calls a method of an object. -/
  | call (object : Object) (l : Text)
  deriving DecidableEq

/-- The name that a line calls a method of; the creation of a table is no
such call. -/
def receiverOf? (l : Text) : Option Text :=
  if (creation? (tokens l)).isSome then none
  else
    match tokens l with
    | .word name :: .mark '.' :: _ => some name
    | _ => none

/-- What a chunk does behind givings. -/
def Chunk.deeds (free : List Text) (gs : List Giving) : Chunk → List Deed
  | line l =>
    (receiverOf? l).toList.map fun name => .call (denoted free gs name) l
  | context header body =>
    body.map (.write (header.table.denoted free gs) header.region)

/-- What chunks do behind givings, in their order. -/
def deedsOf (free : List Text) (gs : List Giving) : List Chunk → List Deed
  | [] => []
  | c :: cs => c.deeds free gs ++ deedsOf free (gs ++ c.gives?.toList) cs

/-- What chunks do. -/
def chunkDeeds (cs : List Chunk) : List Deed := deedsOf (freeNames cs) [] cs

/-- What a log does. -/
def deedsIn (log : List Text) : List Deed :=
  chunkDeeds (chunks (flatLines log))

/-- Is a literal written to an object's body? -/
def Deed.isLiteral : Deed → Bool
  | write _ region st => region = .body && st.isData
  | call .. => false

/-- Is a literal written to the body of this object? -/
def Deed.isLiteralOn (object : Object) : Deed → Bool
  | write o region st => o = object && (region = .body && st.isData)
  | call .. => false

-- =========================================================== steady logs

/-- The tables that a binding may be written for because of a block: in
front of a context, or behind a block that names a table with literals. -/
def Block.claims (plan : Plan) : Block → List Text
  | context table _ _ => [table].filter plan.bindable.contains
  | b => b.names?.toList.filter fun t => !(plan.data t).isEmpty

/-- Of the tables that a binding may have been written for, those whose
local names have not been given away behind it. -/
def pendingBehind (pending : List Text) : Option Giving → List Text
  | none => pending
  | some g => pending.filter fun t => tableAlias t ≠ g.1

/-- The tables that a binding may stand for behind a block. -/
def Block.pending (plan : Plan) (b : Block) (pending : List Text) :
    List Text :=
  b.claims plan ++ pendingBehind pending b.gives?

/-- The tables whose names are bound behind a block, because a header is
written for it: for what stays in a context, or above for its literals,
unless the table is created elsewhere. -/
def Block.headed (plan : Plan) : Block → List Text
  | context table region statements =>
    if plan.bindable.contains table
        && (!(Script.staying table region statements).isEmpty
          || (!(plan.data table).isEmpty && !plan.created.contains table)) then
      [table]
    else []
  | _ => []

/-- Is the chunk read alike with the bindings that may stand in front of it
and, if it is a context, those that may be written for it? A called name
stands for the table, if there is one, that it may be bound to, and if it
is free it has been bound. A header's name stands for the table that it was
given to, or it was given to none: then it is not given away later, and it
was not given away before either, or is written as it is and not bound. -/
def Chunk.Steady (free : List Text) (gs later : List Giving)
    (before behind headed : List Text) : Chunk → Prop
  | line l =>
    ∀ name ∈ receiverOf? l,
      (∀ table ∈ before, tableAlias table = name →
        denoted free gs name = .table table)
      ∧ (name ∈ free → ∃ table ∈ headed, tableAlias table = name)
  | context header _ =>
    ∀ name ∈ header.table.name?,
      (∀ table ∈ named? gs name, standing? gs name = some (some table))
        ∧ (named? gs name = none → standing? later name = none
          ∧ (standing? gs name = none
            ∨ (tableAlias name = name
              ∧ ∀ table ∈ behind, tableAlias table ≠ name)))

/-- Is every chunk read alike? -/
def SteadyFrom (plan : Plan) (free : List Text) (n : Names)
    (gs : List Giving) (pending headed : List Text) : List Chunk → Prop
  | [] => True
  | c :: cs =>
    c.Steady free gs (givingsIn cs) pending
        ((blockOf n c).1.pending plan pending) headed
      ∧ SteadyFrom plan free (blockOf n c).2 (gs ++ c.gives?.toList)
          ((blockOf n c).1.pending plan pending)
          (headed ++ (blockOf n c).1.headed plan) cs

/-- The plan for chunks. -/
def planOfChunks (cs : List Chunk) : Plan :=
  planFor (blocksOf .none cs).1 (blocksOf .none cs).2.bindable

/-- Chunks whose names are read alike in the normal form. -/
def SteadyChunks (cs : List Chunk) : Prop :=
  SteadyFrom (planOfChunks cs) (freeNames cs) .none [] [] [] cs

instance decidableSteadyChunk (free : List Text) (gs later : List Giving)
    (before behind headed : List Text) :
    ∀ c : Chunk, Decidable (c.Steady free gs later before behind headed)
  | .line l =>
    inferInstanceAs (Decidable (∀ name ∈ receiverOf? l, _ ∧ _))
  | .context header _ =>
    inferInstanceAs (Decidable (∀ name ∈ header.table.name?, _ ∧ _))

instance decidableSteadyFrom (plan : Plan) (free : List Text) :
    ∀ (n : Names) (gs : List Giving) (pending headed : List Text)
      (cs : List Chunk),
      Decidable (SteadyFrom plan free n gs pending headed cs)
  | _, _, _, _, [] => isTrue trivial
  | n, gs, pending, headed, c :: cs =>
    have := decidableSteadyFrom plan free (blockOf n c).2
      (gs ++ c.gives?.toList) ((blockOf n c).1.pending plan pending)
      (headed ++ (blockOf n c).1.headed plan) cs
    inferInstanceAs (Decidable (_ ∧ _))

instance (cs : List Chunk) : Decidable (SteadyChunks cs) :=
  inferInstanceAs (Decidable (SteadyFrom _ _ _ _ _ _ _))

/-- Is the chunk written as it is read? No line ends with a second carriage
return, and no statement begins with a blank that is no indentation. -/
def Chunk.Plain : Chunk → Prop
  | line l => l.getLast? ≠ some '\r'
  | context _ body => ∀ st ∈ body, Text.trimStart st.head = st.head

instance decidablePlain : ∀ c : Chunk, Decidable c.Plain
  | .line l => inferInstanceAs (Decidable (l.getLast? ≠ some '\r'))
  | .context _ body => inferInstanceAs (Decidable (∀ st ∈ body, _))

/-- Does the table have literals? -/
def owes (plan : Plan) (table : Option Text) : Bool :=
  table.any fun t => !(plan.data t).isEmpty

/-- May a context be the last that is written with a block and above it, but
for blank lines? A declaration may be dropped. -/
def Block.trails (plan : Plan) (above : Bool) : Block → Bool
  | line l table => (above && Text.allBlank l) || owes plan table
  | creation _ table _ => owes plan (some table)
  | declaration _ table _ => above || owes plan (some table)
  | context .. => true

/-- Does no indented line come to stand behind a context? It would be taken
for a part of it. -/
def Detached (plan : Plan) (above : Bool) : List Block → Prop
  | [] => True
  | b :: bs =>
    (∀ l ∈ b.line?, above = true →
        Text.allBlank l = true ∨ indentWidth l = 0)
      ∧ Detached plan (b.trails plan above) bs

instance decidableDetached (plan : Plan) :
    ∀ (above : Bool) (bs : List Block), Decidable (Detached plan above bs)
  | _, [] => isTrue trivial
  | above, b :: bs =>
    have := decidableDetached plan (b.trails plan above) bs
    inferInstanceAs (Decidable (_ ∧ _))

/-- A log whose normal form does what it does. -/
structure Steady (log : List Text) : Prop where
  /-- Names are read alike in the normal form. -/
  names : SteadyChunks (chunks (flatLines log))
  /-- What is written is read as it was. -/
  plain : ∀ c ∈ chunks (flatLines log), c.Plain
  /-- Contexts end where their statements do. -/
  detached : Detached (planOfChunks (chunks (flatLines log))) false
    (parseBlocks (flatLines log)).1

instance (log : List Text) : Decidable (Steady log) :=
  decidable_of_iff (_ ∧ _ ∧ _)
    ⟨fun ⟨hnames, hplain, hdetached⟩ => ⟨hnames, hplain, hdetached⟩,
      fun h => ⟨h.names, h.plain, h.detached⟩⟩

-- ========================================================== blocks' deeds

/-- The object of a table for all of its contexts. -/
def home (bindable : List Text) (all : List Giving) (table : Text) : Object :=
  if bindable.contains table then .table table
  else .other table (turns all table)

theorem home_of_mem {bindable : List Text} (all : List Giving) {table : Text}
    (h : table ∈ bindable) : home bindable all table = .table table :=
  if_pos (List.contains_iff_mem.2 h)

theorem home_of_not_mem {bindable : List Text} (all : List Giving)
    {table : Text} (h : table ∉ bindable) :
    home bindable all table = .other table (turns all table) :=
  if_neg fun hcontains => h (List.contains_iff_mem.1 hcontains)

/-- Tables have objects of their own. -/
theorem home_injective {bindable : List Text} {all : List Giving} {t t' : Text}
    (h : home bindable all t = home bindable all t') : t = t' := by
  unfold home at h
  split at h <;> split at h <;> injection h

/-- What a block does behind givings, if each table has its object. -/
def Block.deeds (free : List Text) (object : Text → Object)
    (gs : List Giving) : Block → List Deed
  | line l _ =>
    (receiverOf? l).toList.map fun name => .call (denoted free gs name) l
  | context table region statements =>
    statements.map (.write (object table) region)
  | _ => []

/-- What blocks do behind givings, in their order. -/
def blockDeeds (free : List Text) (object : Text → Object)
    (gs : List Giving) : List Block → List Deed
  | [] => []
  | b :: bs =>
    b.deeds free object gs
      ++ blockDeeds free object (gs ++ b.gives?.toList) bs

theorem receiverOf?_of_creation? {l : Text} {c : Creation}
    (h : creation? (tokens l) = some c) :
    receiverOf? l = none := by
  unfold receiverOf?
  rw [h]
  rfl

/-- A declaration begins with a word and an equals sign, and calls nothing. -/
theorem receiverOf?_of_declaration? {l name table : Text}
    (h : declaration? (tokens l) = some (name, table)) :
    receiverOf? l = none := by
  unfold declaration? at h
  obtain ⟨⟨name', rest⟩, hbinding, -⟩ := Option.bind_eq_some_iff.1 h
  obtain ⟨ts₁, ts₂, htokens, hskip, -⟩ := exists_word_of_eatBinding? hbinding
  unfold receiverOf?
  split
  case isTrue => rfl
  case isFalse =>
      rw [htokens]
      split
      next heq =>
          injection heq with _ hpoint
          rw [hpoint] at hskip
          injection hskip with hmark
          cases hmark
      next => rfl

/-- A line that gives a name to a table calls nothing. -/
theorem receiverOf?_of_given? {l name table : Text}
    (h : given? l = some (name, some table)) :
    receiverOf? l = none := by
  rcases Piece.cases_line l
    with ⟨c, hc⟩ | ⟨name', table', hd⟩ | ⟨hcreation, hdeclaration⟩
  · exact receiverOf?_of_creation? hc
  · exact receiverOf?_of_declaration? hd
  · rw [given?_of_line hcreation hdeclaration] at h
    obtain ⟨target, -, heq⟩ := Option.map_eq_some_iff.1 h
    cases heq

theorem deeds_blockOf_line (free : List Text) (object : Text → Object)
    (gs : List Giving) (n : Names) (l : Text) :
    (blockOf n (.line l)).1.deeds free object gs
      = (Chunk.line l).deeds free gs := by
  show (blockOf n (Piece.line l).chunk).1.deeds free object gs
    = (receiverOf? l).toList.map fun name => .call (denoted free gs name) l
  rcases Piece.cases_line l
    with ⟨c, h⟩ | ⟨name, table, h⟩ | ⟨hcreation, hdeclaration⟩
  · -- a creation, which calls nothing of a table
    rw [blockOf_creation h, receiverOf?_of_creation? h]
    rfl
  · -- a declaration
    rw [blockOf_declaration h, receiverOf?_of_declaration? h]
    rfl
  · -- a plain line
    rw [blockOf_line hcreation hdeclaration]
    rfl

/-- A name that was given away, but never to a table, stands for something
else. -/
theorem standing?_of_named?_eq_none {gs : List Giving} {name : Text}
    (h : named? gs name = none) (hgiven : standing? gs name ≠ none) :
    standing? gs name = some none := by
  match hstanding : standing? gs name with
  | none => exact absurd hstanding hgiven
  | some none => rfl
  | some (some table) =>
      rw [named?_of_standing? hstanding] at h
      cases h

-- ======================================================== blocks read alike

/-- A binding may be written for the table, or its name was given to its
object, and is not bound. -/
def Placed (bindable : List Text) (object : Text → Object)
    (gs : List Giving) (pending : List Text) (table : Text) : Prop :=
  table ∈ bindable
    ∨ (standing? gs table = some none
      ∧ object table = .other table (turns gs table)
      ∧ tableAlias table = table ∧ ∀ t ∈ pending, tableAlias t ≠ table)

/-- Is the block read alike? -/
def Block.Steady (bindable free : List Text) (object : Text → Object)
    (gs : List Giving) (before behind headed : List Text) : Block → Prop
  | line l _ =>
    ∀ name ∈ receiverOf? l,
      (∀ table ∈ before, tableAlias table = name →
        denoted free gs name = .table table)
      ∧ (name ∈ free → ∃ table ∈ headed, tableAlias table = name)
  | context table _ _ => Placed bindable object gs behind table
  | _ => True

/-- Is every block read alike? -/
def SteadyBlocks (plan : Plan) (free : List Text) (object : Text → Object)
    (gs : List Giving) (pending headed : List Text) : List Block → Prop
  | [] => True
  | b :: bs =>
    b.Steady plan.bindable free object gs pending (b.pending plan pending)
        headed
      ∧ SteadyBlocks plan free object (gs ++ b.gives?.toList)
          (b.pending plan pending) (headed ++ b.headed plan) bs

section

variable {cs before after : List Chunk} {header : Header}
  {body : List Statement} {pending behind headed : List Text}

/-- A header's name is resolved to the table that it was given to, or to
itself. -/
theorem resolve_name (before : List Chunk) (name : Text) :
    (resolve (blocksOf .none before).2 (.name name)).1
      = (named? (givingsIn before) name).getD name := by
  rw [resolve, ← lookup_aliases]
  cases (blocksOf .none before).2.aliases.lookup name <;> rfl

/-- A name that is given away neither above a chunk nor below it, and not
by the chunk, is not given away. -/
theorem standing?_around {name : Text}
    (hcs : cs = before ++ .context header body :: after)
    (hlater : standing? (givingsIn after) name = none) :
    standing? (givingsIn cs) name = standing? (givingsIn before) name := by
  rw [hcs, givingsIn_append, givingsIn_cons, standing?_append,
    standing?_append, hlater]
  rfl

/-- In a steady log a header that is never bound names what it is for. -/
theorem placed_resolve
    (hcs : cs = before ++ .context header body :: after)
    (hsteady : (Chunk.context header body).Steady (freeNames cs)
      (givingsIn before) (givingsIn after) pending behind headed) :
    Placed (blocksOf .none cs).2.bindable
      (home (blocksOf .none cs).2.bindable (givingsIn cs))
      (givingsIn before) behind
      (resolve (blocksOf .none before).2 header.table).1 := by
  have hmem : Chunk.context header body ∈ cs :=
    hcs ▸ List.mem_append_right _ List.mem_cons_self
  cases htable : header.table with
  | id table => exact Or.inl (Known.headed hmem htable).mem_bindable
  | name name =>
      obtain ⟨-, huntold⟩ := hsteady name (by rw [htable]; rfl)
      rw [resolve_name]
      cases hnamed : named? (givingsIn before) name with
      | some table =>
          exact Or.inl (Known.resolved hcs htable hnamed).mem_bindable
      | none =>
          rw [Option.getD_none]
          by_cases hbindable : name ∈ (blocksOf .none cs).2.bindable
          · exact Or.inl hbindable
          -- a name that is never given away could be bound
          obtain ⟨hlater, hbefore⟩ := huntold hnamed
          have hgiven : standing? (givingsIn before) name ≠ none := by
            intro hnone
            have hnever := (standing?_around hcs hlater).trans hnone
            exact hbindable (Known.untold hmem htable hnever).mem_bindable
          have hturns : turns (givingsIn cs) name
              = turns (givingsIn before) name := by
            rw [hcs, givingsIn_append, givingsIn_cons, turns_append,
              turns_append, turns_of_standing?_eq_none hlater]
            rfl
          refine Or.inr ⟨standing?_of_named?_eq_none hnamed hgiven, ?_,
            hbefore.resolve_left hgiven⟩
          rw [home_of_not_mem _ hbindable, hturns]

/-- In a steady log a header stands for its table's object. -/
theorem denoted_header
    (hcs : cs = before ++ .context header body :: after)
    (hclaimed : ∀ table,
      (resolve (blocksOf .none before).2 header.table).1 = table →
        table ∈ (blocksOf .none cs).2.bindable → table ∈ behind)
    (hsteady : (Chunk.context header body).Steady (freeNames cs)
      (givingsIn before) (givingsIn after) pending behind headed) :
    header.table.denoted (freeNames cs) (givingsIn before)
      = home (blocksOf .none cs).2.bindable (givingsIn cs)
          (resolve (blocksOf .none before).2 header.table).1 := by
  have hmem : Chunk.context header body ∈ cs :=
    hcs ▸ List.mem_append_right _ List.mem_cons_self
  have hplaced := placed_resolve hcs hsteady
  cases htable : header.table with
  | id table =>
      have hbindable := (Known.headed hmem htable).mem_bindable
      exact (home_of_mem _ hbindable).symm
  | name name =>
      have hname : header.table.name? = some name := by rw [htable]; rfl
      obtain ⟨hfresh, huntold⟩ := hsteady name hname
      rw [htable, resolve_name] at hplaced hclaimed
      rw [resolve_name]
      cases hnamed : named? (givingsIn before) name with
      | some table =>
          have hbindable := (Known.resolved hcs htable hnamed).mem_bindable
          exact (denoted_of_standing? (hfresh table hnamed)).trans
            (home_of_mem _ hbindable).symm
      | none =>
          rw [hnamed, Option.getD_none] at hplaced hclaimed
          rw [Option.getD_none]
          show denoted _ _ name = home _ _ name
          rcases hplaced with hbindable | ⟨hstanding, hobject, -⟩
          · obtain ⟨hlater, hnone | ⟨halias, hunclaimed⟩⟩ := huntold hnamed
            · -- the name is free, and is taken for the table's identifier
              have hfree : name ∈ freeNames cs := mem_freeNames_iff.2
                ⟨⟨_, hmem, hname⟩, (standing?_around hcs hlater).trans hnone⟩
              rw [home_of_mem _ hbindable]
              exact denoted_of_free hnone hfree
            · -- the context itself may have the name bound
              exact absurd halias
                (hunclaimed name (hclaimed name rfl hbindable))
          · rw [hobject]
            exact denoted_of_standing?_other hstanding

/-- In a steady log blocks do what their chunks do, and are read alike. -/
theorem deedsOf_eq (hcs : cs = before ++ after)
    (hsteady : SteadyFrom (planOfChunks cs) (freeNames cs)
      (blocksOf .none before).2 (givingsIn before) pending headed after) :
    deedsOf (freeNames cs) (givingsIn before) after
        = blockDeeds (freeNames cs)
            (home (blocksOf .none cs).2.bindable (givingsIn cs))
            (givingsIn before) (blocksOf (blocksOf .none before).2 after).1
      ∧ SteadyBlocks (planOfChunks cs) (freeNames cs)
          (home (blocksOf .none cs).2.bindable (givingsIn cs))
          (givingsIn before) pending headed
          (blocksOf (blocksOf .none before).2 after).1 := by
  induction after generalizing before pending headed with
  | nil => exact ⟨rfl, trivial⟩
  | cons c after ih =>
      obtain ⟨hc, hrest⟩ := hsteady
      have hnext : givingsIn (before ++ [c])
          = givingsIn before ++ c.gives?.toList := by
        rw [givingsIn_append, givingsIn_cons]
        exact congrArg _ (List.append_nil _)
      have hnames : (blocksOf .none (before ++ [c])).2
          = (blockOf (blocksOf .none before).2 c).2 := by
        rw [blocksOf_append]
        rfl
      have hsplit : cs = (before ++ [c]) ++ after := by simp [hcs]
      have htail := ih hsplit (hnext ▸ hnames ▸ hrest)
      rw [hnext, hnames] at htail
      rw [deedsOf, blocksOf_cons]
      show _ = Block.deeds _ _ _ _ ++ blockDeeds _ _ _ _
        ∧ Block.Steady _ _ _ _ _ _ _ _ ∧ SteadyBlocks _ _ _ _ _ _ _
      rw [gives?_blockOf, htail.1]
      refine ⟨congrArg (· ++ _) ?_, ?_, htail.2⟩
      · -- what the chunk does
        cases c with
        | line l => exact (deeds_blockOf_line _ _ _ _ l).symm
        | context header body =>
            rw [blockOf_header] at hc ⊢
            show body.map _ = body.map _
            rw [denoted_header hcs ?_ hc]
            rintro table rfl hbindable
            refine List.mem_append_left _
              (List.mem_filter.2 ⟨List.mem_cons_self, ?_⟩)
            exact List.contains_iff_mem.2 hbindable
      · -- how its block is read
        cases c with
        | context header body =>
            have hplaced := placed_resolve hcs hc
            rw [blockOf_header] at hplaced ⊢
            exact hplaced
        | line l =>
            show (blockOf (blocksOf .none before).2
              (Piece.line l).chunk).1.Steady _ _ _ _ _ _ _
            rcases Piece.cases_line l
              with ⟨c, h⟩ | ⟨name, table, h⟩ | ⟨hcreation, hdeclaration⟩
            · rw [blockOf_creation h]
              trivial
            · rw [blockOf_declaration h]
              trivial
            · rw [blockOf_line hcreation hdeclaration]
              exact hc

end

end GridScript.Script
