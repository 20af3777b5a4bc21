/-
The headers of a normal form are bound to their tables. A header gives the
local name of its table, which several tables may share; so it is right
only if, in what stands above it, the name was given to that table last.

# The argument

The writer keeps what is bound in step with what stands above (`Exact`):
the two agree at the start, and each line that is written changes both
alike. A declaration is dropped only where the name stands for its table
already, and then neither changes. So the condition under which a context
is written is the law itself (`Course.headed`).
-/
import GridScript.Proofs.Script.Course

namespace GridScript.Script

-- ================================================================= names

/-- The names that are bound stand for their tables behind the givings, and
no other name stands for a table. -/
def Exact (bound : Aliases) (gs : List Giving) : Prop :=
  ∀ name table, bound.lookup name = some table
    ↔ standing? gs name = some (some table)

theorem exact_nil : Exact [] [] := fun name table => by simp

theorem Exact.give {bound : Aliases} {gs : List Giving} (h : Exact bound gs)
    (g : Option Giving) : Exact (bound.give g) (gs ++ g.toList) := by
  intro name table
  match g with
  | none =>
      rw [Option.toList_none, List.append_nil]
      exact h name table
  | some (given, none) =>
      rw [Option.toList_some, standing?_append, standing?_singleton,
        Aliases.give, Aliases.lookup_without]
      split
      case isTrue => simp
      case isFalse => exact h name table
  | some (given, some t) =>
      rw [Option.toList_some, standing?_append, standing?_singleton,
        Aliases.give, Aliases.lookup_rebind]
      split
      case isTrue => simp
      case isFalse => exact h name table

-- =============================================================== headers

/-- Behind the givings, every context of one of the tables stands where its
local name was given to the table last. -/
def Headed (tables : List Text) : List Giving → List Piece → Prop
  | _, [] => True
  | gs, .line l :: ps => Headed tables (gs ++ (given? l).toList) ps
  | gs, .context c :: ps =>
    (c.table ∈ tables →
      standing? gs (tableAlias c.table) = some (some c.table))
      ∧ Headed tables gs ps

/-- Pieces are written with all their headers bound. -/
theorem Course.headed {bindable created : List Text} {last : Option Block}
    {bound : Aliases} {owed : Text → List Statement} {bs : List Block}
    {out : List Piece} (h : Course bindable created last bound owed bs out)
    {gs : List Giving} (hexact : Exact bound gs) (htold : ∀ b ∈ bs, b.Told) :
    Headed bindable gs out := by
  induction h generalizing gs with
  | done => trivial
  | @binding _ _ _ _ c _ known unbound _ _ _ ih =>
      show Headed bindable (gs ++ (given? (bindingLine c.table)).toList) _
      rw [given?_bindingLine]
      exact ih (hexact.give (some (tableAlias c.table, some c.table))) htold
  | literals due place headed rest ih =>
      exact ⟨fun hin => (hexact _ _).1 (headed hin), ih hexact htold⟩
  | @kept _ _ _ b l _ _ own _ ih =>
      obtain ⟨hb, hbs⟩ := List.forall_mem_cons.1 htold
      show Headed bindable (gs ++ (given? l).toList) _
      rw [hb l own]
      exact ih (hexact.give b.gives?) hbs
  | redundant headed rest ih =>
      exact ih hexact (List.forall_mem_cons.1 htold).2
  | context filled headed rest ih =>
      exact ⟨fun hin => (hexact _ _).1 (headed hin),
        ih hexact (List.forall_mem_cons.1 htold).2⟩
  | empty _ rest ih => exact ih hexact (List.forall_mem_cons.1 htold).2

/-- Joined contexts stand where the first of them stood. -/
theorem Headed.joinPieces {tables : List Text} {gs : List Giving}
    {ps : List Piece} (h : Headed tables gs ps) :
    Headed tables gs (joinPieces ps) := by
  refine joinPieces_induction
    (motive := fun ps qs => ∀ gs, Headed tables gs ps → Headed tables gs qs) ?_
      ?_ ?_ ps gs h
  · exact fun _ h => h
  · intro p ps qs ih gs h
    cases p with
    | line l => exact ih _ h
    | context c => exact ⟨h.1, ih gs h.2⟩
  · intro c d ps qs _ ih gs h
    obtain ⟨hc, -, hrest⟩ := ih gs h
    exact ⟨hc, hrest⟩

/-- In terms of the lines above a context. -/
theorem Headed.standing {tables : List Text} {gs : List Giving}
    {before after : List Piece} {c : Context}
    (h : Headed tables gs (before ++ .context c :: after))
    (hc : c.table ∈ tables) :
    standing? (gs ++ givings (linesIn before)) (tableAlias c.table)
      = some (some c.table) := by
  induction before generalizing gs with
  | nil =>
      show standing? (gs ++ []) _ = _
      rw [List.append_nil]
      exact h.1 hc
  | cons p before ih =>
      cases p with
      | line l =>
          rw [linesIn_line, givings_cons, ← List.append_assoc]
          exact ih h
      | context d => exact ih h.2

-- ======================================================== known tables

/-- A table that a script names: it creates the table, looks it up, or gives
its identifier in a header, outright or by a name that stands for it, or by
one that the script never gives away. -/
inductive Known (cs : List Chunk) (table : Text) : Prop where
  | created {l c} (line : .line l ∈ cs)
      (creates : creation? (tokens l) = some c)
      (same : c.table = table)
  | declared {l name} (line : .line l ∈ cs)
      (declares : declaration? (tokens l) = some (name, table))
  | called {before l after name ts} (line : cs = before ++ .line l :: after)
      (plain : creation? (tokens l) = none)
      (calls : tokens l = .word name :: .mark '.' :: ts)
      (named : named? (givingsIn before) name = some table)
  | lookedUp {before l after} (line : cs = before ++ .line l :: after)
      (plain : creation? (tokens l) = none ∧ declaration? (tokens l) = none)
      (uncalled : ∀ name ts, tokens l = .word name :: .mark '.' :: ts →
        named? (givingsIn before) name = none)
      (looks : firstLookup? (tokens l) = some table)
  | headed {header body} (context : .context header body ∈ cs)
    (id : header.table = .id table)
  | resolved {before header body after name}
      (context : cs = before ++ .context header body :: after)
      (byName : header.table = .name name)
      (named : named? (givingsIn before) name = some table)
  | untold {header body} (context : .context header body ∈ cs)
      (byName : header.table = .name table)
      (never : standing? (givingsIn cs) table = none)

/-- The tables that a chunk makes known, in the middle of others, are known
in the end. -/
theorem mem_known_of_blockOf {before after : List Chunk} {c : Chunk}
    {table : Text}
    (h : table ∈ (blockOf (blocksOf .none before).2 c).2.known) :
    table ∈ (blocksOf .none (before ++ c :: after)).2.known := by
  rw [blocksOf_append, blocksOf_cons]
  exact known_subset_blocksOf _ after h

theorem mem_known_of_names? {before after : List Chunk} {c : Chunk}
    {table : Text}
    (h : (blockOf (blocksOf .none before).2 c).1.names? = some table) :
    table ∈ (blocksOf .none (before ++ c :: after)).2.known :=
  mem_known_of_blockOf (mem_known_blockOf h)

/-- A name that stood for nothing in a header stays among those. -/
theorem unresolved_subset_blocksOf (n : Names) (cs : List Chunk) :
    n.unresolved ⊆ (blocksOf n cs).2.unresolved := by
  induction cs generalizing n with
  | nil => exact List.Subset.refl _
  | cons c cs ih =>
      rw [blocksOf_cons]
      refine List.Subset.trans ?_ (ih _)
      cases c with
      | context header body =>
          show n.unresolved ⊆ (resolve n header.table).2.unresolved
          cases header.table with
          | id table => exact List.Subset.refl _
          | name given =>
              rw [resolve]
              cases n.aliases.lookup given with
              | none => exact fun _ => List.mem_insert_of_mem
              | some table => exact List.Subset.refl _
      | line l =>
          show n.unresolved ⊆ (blockOf n (Piece.line l).chunk).2.unresolved
          rcases Piece.cases_line l
            with ⟨c, hc⟩ | ⟨name, t, hd⟩ | ⟨hcreation, hdeclaration⟩
          · rw [blockOf_creation hc]
            exact List.Subset.refl _
          · rw [blockOf_declaration hd]
            exact List.Subset.refl _
          · rw [blockOf_line hcreation hdeclaration]
            unfold Names.afterLine
            cases mention? n.aliases (tokens l) <;> cases marginTarget? l <;>
              exact List.Subset.refl _

/-- A call mentions the table that its receiver was given to. -/
theorem mention?_of_call {before : List Chunk} {l name table : Text}
    {ts : List Token} (calls : tokens l = .word name :: .mark '.' :: ts)
    (named : named? (givingsIn before) name = some table) :
    mention? (blocksOf .none before).2.aliases (tokens l) = some table := by
  rw [← lookup_aliases] at named
  rw [calls, mention?, receiver?, named]

/-- A line that calls no method of a table mentions the first one that it
looks up. -/
theorem mention?_of_lookup {before : List Chunk} {l table : Text}
    (uncalled : ∀ name ts, tokens l = .word name :: .mark '.' :: ts →
      named? (givingsIn before) name = none)
    (looks : firstLookup? (tokens l) = some table) :
    mention? (blocksOf .none before).2.aliases (tokens l) = some table := by
  have hnone : receiver? (blocksOf .none before).2.aliases (tokens l)
      = none := by
    unfold receiver?
    split
    next name ts hcalls =>
        rw [lookup_aliases]
        exact uncalled name ts hcalls
    next => rfl
  rw [mention?, hnone]
  exact looks

/-- A header's name that was given to nothing in front of it is among those
that stood for nothing. -/
theorem mem_unresolved_of_header {before after : List Chunk} {header : Header}
    {body : List Statement} {name : Text} (byName : header.table = .name name)
    (never : standing? (givingsIn (before ++ .context header body :: after))
      name = none) :
    name
      ∈ (blocksOf .none
        (before ++ .context header body :: after)).2.unresolved := by
  have hnone : named? (givingsIn before) name = none := by
    rw [standing?_eq_none_iff, givingsIn_append] at never
    unfold named?
    rw [List.findSome?_eq_none_iff]
    intro g hg
    exact if_neg (never g (List.mem_append_left _ (List.mem_reverse.1 hg)))
  rw [← lookup_aliases] at hnone
  rw [blocksOf_append, blocksOf_cons]
  refine unresolved_subset_blocksOf _ after ?_
  rw [blockOf_header, byName, resolve, hnone]
  exact List.mem_insert_self

/-- A binding may be written for every table that the script names. -/
theorem Known.mem_bindable {cs : List Chunk} {table : Text}
    (h : Known cs table) :
    table ∈ (blocksOf .none cs).2.bindable := by
  cases h with
  | created line creates same =>
      obtain ⟨before, after, rfl⟩ := List.append_of_mem line
      refine List.mem_append_left _ (mem_known_of_names? ?_)
      exact same ▸ congrArg (fun r => r.1.names?) (blockOf_creation creates)
  | declared line declares =>
      obtain ⟨before, after, rfl⟩ := List.append_of_mem line
      refine List.mem_append_left _ (mem_known_of_names? ?_)
      exact congrArg (fun r => r.1.names?) (blockOf_declaration declares)
  | @called before l after name ts line plain calls named =>
      subst line
      -- a call has a point where a declaration has its equals sign
      have hdeclaration : declaration? (tokens l) = none := by
        rw [calls]
        rfl
      refine List.mem_append_left _ (mem_known_of_names? ?_)
      refine (congrArg (fun r => r.1.names?)
        (blockOf_line plain hdeclaration)).trans ?_
      exact mention?_of_call calls named
  | @lookedUp before l after line plain uncalled looks =>
      subst line
      refine List.mem_append_left _ (mem_known_of_names? ?_)
      refine (congrArg (fun r => r.1.names?)
        (blockOf_line plain.1 plain.2)).trans ?_
      exact mention?_of_lookup uncalled looks
  | headed context id =>
      obtain ⟨before, after, rfl⟩ := List.append_of_mem context
      refine List.mem_append_left _ (mem_known_of_blockOf ?_)
      rw [blockOf_header, id]
      exact List.mem_insert_self
  | resolved context byName named =>
      subst context
      refine List.mem_append_left _ (mem_known_of_blockOf ?_)
      rw [← lookup_aliases] at named
      rw [blockOf_header, byName, resolve, named]
      exact List.mem_insert_self
  | untold context byName never =>
      obtain ⟨before, after, rfl⟩ := List.append_of_mem context
      have hassigned : table
          ∉ (blocksOf .none (before ++ _ :: after)).2.assigned :=
        fun hin => mem_assigned_iff.1 hin never
      exact List.mem_append_right _ (List.mem_filter.2
        ⟨mem_unresolved_of_header byName never, by simpa using hassigned⟩)

-- ============================================================ the theorem

/-- In the normal form of a log, the local name of every context's table was
given to the table last. -/
theorem headers_standing (log : List Text) :
    normalize log = (logPieces log).flatMap Piece.render
      ∧ ∀ before c after, logPieces log = before ++ .context c :: after →
        Known (chunks (flatLines log)) c.table →
        standing? (givings (before.flatMap Piece.render)) (tableAlias c.table)
          = some (some c.table) := by
  refine ⟨normalize_eq log, ?_⟩
  intro before c after hpieces hknown
  unfold logPieces at hpieces
  split at hpieces
  case isTrue => simp at hpieces
  case isFalse =>
      obtain ⟨out, hjoined, hcourse⟩ := exists_course (flatLines log)
      have hheaded :=
        (hcourse.headed exact_nil (told_parseBlocks _)).joinPieces
      rw [← hjoined, hpieces] at hheaded
      rw [givings_render]
      exact hheaded.standing hknown.mem_bindable

/-- A name of one table, and a header with the identifier of another that
has the same local name. -/
def sharedName : List Text :=
  ["a_b = proj.table('a-b')".toList, "with table_context('a b'):".toList,
    "    a0 = f()".toList]

theorem headers_standing_sharedName :
    let l := "a_b = proj.table('a-b')".toList
    let c : Context := ⟨"a b".toList, .body, false, [⟨"a0 = f()".toList, []⟩]⟩
    logPieces sharedName
      = [.line l, .line (bindingLine c.table)] ++ .context c :: []
      ∧ Known (chunks (flatLines sharedName)) c.table
      ∧ standing?
          (givings
            ([Piece.line l, .line (bindingLine c.table)].flatMap Piece.render))
          (tableAlias c.table) = some (some c.table) := by
  intro l c
  have hflat : flatLines sharedName = sharedName := by decide
  have hchunks : chunks sharedName
      = [.line l,
        .context ⟨.id "a b".toList, .body⟩ [⟨"a0 = f()".toList, []⟩]] := by
    have hline : header? (tokens l) = none := by decide +kernel
    have hheader : header? (tokens "with table_context('a b'):".toList)
        = some ⟨.id "a b".toList, .body⟩ := by decide +kernel
    have hbody : takeBody ["    a0 = f()".toList]
        = ([⟨"a0 = f()".toList, []⟩], []) := by decide
    rw [sharedName, chunks_line hline, chunks_header hheader, hbody, chunks]
  have hpieces : logPieces sharedName
      = [.line l, .line (bindingLine c.table)] ++ .context c :: [] := by
    unfold logPieces
    rw [if_neg (by decide), piecesOf_eq, hflat, parseBlocks, hchunks]
    decide +kernel
  have hknown : Known (chunks (flatLines sharedName)) c.table := by
    rw [hflat, hchunks]
    exact .headed (List.mem_cons_of_mem _ List.mem_cons_self) rfl
  exact ⟨hpieces, hknown, (headers_standing sharedName).2 _ _ _ hpieces hknown⟩

end GridScript.Script
