/-
The pieces of a steady script do what its lines do: every statement is
written to its object, and every method is called of it
(`sameDeeds_piecesOf`).

# The argument

What stands above a place in the normal form gives names away as what
stands above it in the log does, with bindings in between that give local
names to their tables, and those are pending until the names are given away
again (`Alongside`). Where a name is read, it is not one of those, or it
stands for that very table (`Alongside.denoted_eq`). So every context that
is written has its table's object, wherever it has been moved to, and an
induction on the course of writing compares the two logs (`Course.deeds`).

The literals of one table stand in one context, and tables have objects of
their own; so literals are compared object by object, and everything else
in its order.
-/
import GridScript.Proofs.Script.Deeds

namespace GridScript.Script

-- ==================================================== names in both logs

theorem mem_pendingBehind {pending : List Text} {g : Option Giving}
    {table : Text} :
    table ∈ pendingBehind pending g
      ↔ table ∈ pending ∧ ∀ g' ∈ g, tableAlias table ≠ g'.1 := by
  cases g with
  | none => simp [pendingBehind]
  | some g => simp [pendingBehind]

/-- Names stand for the same behind both givings, apart from local names
that were bound in the second for one of the tables. -/
structure Alongside (pending : List Text) (gs gs' : List Giving) : Prop where
  standing : ∀ name, standing? gs' name = standing? gs name
    ∨ ∃ table ∈ pending, tableAlias table = name
      ∧ standing? gs' name = some (some table)
  turns : ∀ name, turns gs' name = turns gs name

namespace Alongside

variable {pending : List Text} {gs gs' : List Giving}

theorem nil (pending : List Text) : Alongside pending [] [] :=
  ⟨fun _ => Or.inl rfl, fun _ => rfl⟩

theorem mono (h : Alongside pending gs gs') {pending' : List Text}
    (hsub : pending ⊆ pending') :
    Alongside pending' gs gs' := by
  refine ⟨fun name => (h.standing name).imp_right ?_, h.turns⟩
  rintro ⟨table, htable, hbound⟩
  exact ⟨table, hsub htable, hbound⟩

/-- What is given in both stands in both. -/
theorem give (h : Alongside pending gs gs') (g : Option Giving) :
    Alongside (pendingBehind pending g) (gs ++ g.toList)
      (gs' ++ g.toList) := by
  refine ⟨fun name => ?_, fun name => ?_⟩
  · rw [standing?_append, standing?_append]
    cases hgiven : standing? g.toList name with
    | some target => exact Or.inl rfl
    | none =>
        refine (h.standing name).imp_right ?_
        rintro ⟨table, htable, rfl, hbound⟩
        refine ⟨table, mem_pendingBehind.2 ⟨htable, fun g' hg' heq => ?_⟩,
          rfl, hbound⟩
        exact standing?_eq_none_iff.1 hgiven g'
          (Option.mem_toList.2 hg') heq.symm
  · rw [turns_append, turns_append, h.turns]

theorem turns_table (gs : List Giving) (given table name : Text) :
    Script.turns (gs ++ [(given, some table)]) name
      = Script.turns gs name := by
  rw [turns_append]
  have hnone : Script.turns [(given, some table)] name = 0 := by
    refine List.count_eq_zero.2 fun hmem => ?_
    cases List.mem_singleton.1 hmem
  rw [hnone, Nat.add_zero]

/-- A table may be bound in the second. -/
theorem bind (h : Alongside pending gs gs') {table : Text}
    (htable : table ∈ pending) :
    Alongside pending gs (gs' ++ [(tableAlias table, some table)]) := by
  refine ⟨fun name => ?_, fun name => ?_⟩
  · rw [standing?_append, standing?_singleton]
    by_cases hname : name = tableAlias table
    · exact Or.inr ⟨table, htable, hname.symm, by rw [if_pos hname]; rfl⟩
    · rw [if_neg hname]
      exact h.standing name
  · rw [turns_table, h.turns]

/-- What stands in the second may be given in the first. -/
theorem drop (h : Alongside pending gs gs') {given table : Text}
    (hheld : standing? gs' given = some (some table)) :
    Alongside (pendingBehind pending (some (given, some table)))
      (gs ++ [(given, some table)])
      gs' := by
  refine ⟨fun name => ?_, fun name => ?_⟩
  · rw [standing?_append, standing?_singleton]
    by_cases hname : name = given
    · rw [if_pos hname, hname]
      exact Or.inl hheld
    · rw [if_neg hname]
      refine (h.standing name).imp_right ?_
      rintro ⟨t, ht, rfl, hbound⟩
      refine ⟨t, mem_pendingBehind.2 ⟨ht, ?_⟩, rfl, hbound⟩
      rintro g' ⟨⟩
      exact hname
  · rw [turns_table, h.turns]

/-- A name stands for the same in both, if it stands for every table that
it may be bound to and is free in neither. -/
theorem denoted_eq (h : Alongside pending gs gs') {free : List Text}
    {name : Text}
    (hname : ∀ table ∈ pending, tableAlias table = name →
      denoted free gs name = .table table)
    (hfree : standing? gs' name = none → name ∉ free) :
    denoted [] gs' name = denoted free gs name := by
  rcases h.standing name with hsame | ⟨table, htable, halias, hbound⟩
  · unfold denoted
    rw [hsame, h.turns]
    cases hstanding : standing? gs name with
    | some target => cases target <;> rfl
    | none =>
        rw [hsame] at hfree
        simp [hfree hstanding]
  · rw [hname table htable halias, denoted_of_standing? hbound]

end Alongside

-- ============================================================ written deeds

/-- Behind a line, names are given on. -/
theorem deedsOf_line (free : List Text) (gs : List Giving) (l : Text)
    (ps : List Piece) :
    deedsOf free gs ((Piece.line l :: ps).map Piece.chunk)
      = (Chunk.line l).deeds free gs
        ++ deedsOf free (gs ++ (given? l).toList) (ps.map Piece.chunk) :=
  rfl

/-- A context gives no name. -/
theorem deedsOf_context (free : List Text) (gs : List Giving) (c : Context)
    (ps : List Piece) :
    deedsOf free gs ((Piece.context c :: ps).map Piece.chunk)
      = c.statements.map
          (.write (denoted free gs (tableAlias c.table)) c.region)
        ++ deedsOf free gs (ps.map Piece.chunk) := by
  show _ ++ deedsOf free (gs ++ []) _ = _
  rw [List.append_nil]
  rfl

/-- The name was given away, and the object is what it stands for. -/
structure StandsFor (gs : List Giving) (name : Text) (object : Object) :
    Prop where
  given : standing? gs name ≠ none
  denoted : Script.denoted [] gs name = object

/-- Every context stands where its header has its table's object. -/
def Homed (object : Text → Object) : List Giving → List Piece → Prop
  | _, [] => True
  | gs, .line l :: ps => Homed object (gs ++ (given? l).toList) ps
  | gs, .context c :: ps =>
    StandsFor gs (tableAlias c.table) (object c.table)
      ∧ Homed object gs ps

/-- Joined contexts stand where the first of them stood. -/
theorem Homed.joinPieces {object : Text → Object} {gs : List Giving}
    {ps : List Piece} (h : Homed object gs ps) :
    Homed object gs (joinPieces ps) := by
  refine joinPieces_induction (motive := fun ps qs => ∀ gs,
    Homed object gs ps → Homed object gs qs) ?_ ?_ ?_ ps gs h
  · exact fun _ h => h
  · intro p ps qs ih gs h
    cases p with
    | line l => exact ih _ h
    | context c => exact ⟨h.1, ih gs h.2⟩
  · intro c d ps qs _ ih gs h
    obtain ⟨hc, -, hrest⟩ := ih gs h
    exact ⟨hc, hrest⟩

/-- Where every context has its table's object, no header's name is
free. -/
theorem Homed.freeNames_eq_nil {object : Text → Object} {ps : List Piece}
    (h : Homed object [] ps) : freeNames (ps.map Piece.chunk) = [] := by
  -- above some of the pieces, names are given away already
  have hgiven : ∀ (gs : List Giving) (ps : List Piece), Homed object gs ps →
      ∀ c, .context c ∈ ps →
        standing? (gs ++ givingsIn (ps.map Piece.chunk)) (tableAlias c.table)
          ≠ none := by
    intro gs ps
    induction ps generalizing gs with
    | nil => exact fun _ c hc => by cases hc
    | cons p ps ih =>
        intro h c hc
        rw [List.map_cons, givingsIn_cons, ← List.append_assoc]
        cases p with
        | line l =>
            rcases List.mem_cons.1 hc with hc | hc
            · cases hc
            · exact ih _ h c hc
        | context d =>
            show standing? (gs ++ [] ++ _) _ ≠ none
            rw [List.append_nil]
            rcases List.mem_cons.1 hc with hc | hc
            · cases hc
              exact standing?_append_ne_none h.1.given _
            · exact ih _ h.2 c hc
  refine List.eq_nil_iff_forall_not_mem.2 fun name hname => ?_
  obtain ⟨⟨c, hc, hheader⟩, hnone⟩ := mem_freeNames_iff.1 hname
  obtain ⟨p, hp, rfl⟩ := List.mem_map.1 hc
  cases p with
  | line l => cases hheader
  | context d =>
      cases hheader
      exact hgiven [] ps h d hp hnone

/-- The tables that a binding may be written for in front of the first
block. -/
def opening (plan : Plan) : List Block → List Text
  | .context table region statements :: _ =>
    (Block.context table region statements).claims plan
  | _ => []

theorem mem_opening {plan : Plan} {bs : List Block} {table : Text}
    (h : ∃ b ∈ bs.head?, b.IsOn table) (hbindable : table ∈ plan.bindable) :
    table ∈ opening plan bs := by
  obtain ⟨b, hb, hon⟩ := h
  match bs, hb with
  | b :: bs, rfl =>
      cases b with
      | context t region statements =>
          cases hon
          exact List.mem_filter.2
            ⟨List.mem_cons_self, List.contains_iff_mem.2 hbindable⟩
      | _ => cases hon

section

variable {plan : Plan} {pending free headed : List Text}
  {owed : Text → List Statement} {last : Option Block}
  {bound : Aliases} {bs : List Block} {out : List Piece}
  {object : Text → Object} {gs gs' : List Giving}

/-- A block that names a table with literals has it bound behind it. -/
theorem mem_pending_of_names? {b : Block} {table : Text}
    (hnames : b.names? = some table) (hdata : plan.data table ≠ []) :
    table ∈ b.pending plan pending := by
  have hclaims : table ∈ b.names?.toList.filter fun t =>
      !(plan.data t).isEmpty := by
    refine List.mem_filter.2 ⟨?_, by simpa using hdata⟩
    rw [hnames]
    exact List.mem_singleton_self table
  refine List.mem_append_left _ ?_
  cases b with
  | context => cases hnames
  | _ => exact hclaims

/-- A table that a binding is written for is pending: the block in front
names it, or the one behind stands on it. -/
theorem mem_pending_of_binding {table : Text} (known : table ∈ plan.bindable)
    (hlast : ∀ b ∈ last, ∀ t, b.names? = some t → owed t ≠ [] → t ∈ pending)
    (due : owed table ≠ [] ∨ ∃ b ∈ bs.head?, b.IsOn table)
    (place : Near plan.bindable last bs table) :
    table ∈ opening plan bs ++ pending := by
  rcases due, place with ⟨hdue | hon, ⟨-, b, hb, hnames⟩ | hon'⟩
  · exact List.mem_append_right _ (hlast b hb table hnames hdue)
  · exact List.mem_append_left _ (mem_opening hon' known)
  · exact List.mem_append_left _ (mem_opening hon known)
  · exact List.mem_append_left _ (mem_opening hon known)

/-- Literals are written for a table that has its place. -/
theorem SteadyBlocks.placed {table : Text}
    (h : SteadyBlocks plan free object gs pending headed bs)
    (place : Near plan.bindable last bs table) :
    Placed plan.bindable object gs (opening plan bs ++ pending) table := by
  rcases place with ⟨hin, -⟩ | ⟨b, hb, hon⟩
  · exact Or.inl hin
  · match bs, hb, h with
    | b :: bs, rfl, h =>
        cases b with
        | context t region statements => exact hon ▸ h.1
        | _ => cases hon

/-- A context gives no name. -/
theorem SteadyBlocks.behind_context {table : Text} {region : Region}
    {statements : List Statement}
    (h : SteadyBlocks plan free object gs pending headed
      (.context table region statements :: bs)) :
    SteadyBlocks plan free object gs
      (opening plan (.context table region statements :: bs)
        ++ pending)
      (headed ++ (Block.context table region statements).headed plan)
      bs := by
  have hrest := h.2
  rw [show gs ++ (Block.context table region statements).gives?.toList = gs
    from List.append_nil gs] at hrest
  exact hrest

/-- The name that a table is written under was given to its object. -/
theorem Alongside.homed (h : Alongside pending gs gs') {table : Text}
    (hexact : Exact bound gs')
    (hobject : ∀ t ∈ plan.bindable, object t = .table t)
    (headed : table ∈ plan.bindable →
      bound.lookup (tableAlias table) = some table)
    (hplaced : Placed plan.bindable object gs pending table) :
    StandsFor gs' (tableAlias table) (object table) := by
  by_cases hin : table ∈ plan.bindable
  · -- the name is bound to the table
    have hstanding := (hexact _ _).1 (headed hin)
    rw [hobject table hin]
    exact ⟨by simp [hstanding], denoted_of_standing? hstanding⟩
  · -- the name stands for the same as in front of the first
    obtain ⟨hstanding, hown, halias, hunclaimed⟩ := hplaced.resolve_left hin
    have hsame : standing? gs' table = some none := by
      rcases h.standing table with hsame | ⟨t, ht, hname, -⟩
      · rw [hsame, hstanding]
      · exact absurd hname (hunclaimed t ht)
    rw [halias, hown, ← h.turns]
    exact ⟨by simp [hsame], denoted_of_standing?_other hsame⟩

/-- A line does what its block does. -/
theorem Alongside.deeds_line (h : Alongside pending gs gs')
    (hheaded : ∀ t ∈ headed, standing? gs' (tableAlias t) ≠ none)
    {b : Block} {l : Text} {behind : List Text} (own : b.line? = some l)
    (hgive : given? l = b.gives?)
    (hsteady : b.Steady plan.bindable free object gs pending behind headed) :
    (Chunk.line l).deeds [] gs' = b.deeds free object gs := by
  cases b with
  | creation binding table call =>
      -- a line that gives a name calls nothing
      rw [Chunk.deeds, receiverOf?_of_given? hgive]
      rfl
  | declaration name table l =>
      rw [Chunk.deeds, receiverOf?_of_given? hgive]
      rfl
  | line l' table =>
      cases own
      show (receiverOf? l).toList.map _ = (receiverOf? l).toList.map _
      cases hname : receiverOf? l with
      | none => rfl
      | some name =>
          obtain ⟨hpending, hfree⟩ := hsteady name hname
          show [Deed.call (denoted [] gs' name) l]
            = [Deed.call (denoted free gs name) l]
          rw [h.denoted_eq hpending]
          intro hnone hmem
          -- a free name has been bound by now
          obtain ⟨t, ht, halias⟩ := hfree hmem
          exact hheaded t ht (halias ▸ hnone)
  | context => cases own

/-- A context has its own table's name bound, if any. -/
theorem mem_headed_context {table t : Text} {region : Region}
    {statements : List Statement}
    (h : t ∈ (Block.context table region statements).headed plan) :
    t = table ∧ t ∈ plan.bindable
      ∧ (Script.staying t region statements ≠ []
        ∨ (plan.data t ≠ [] ∧ t ∉ plan.created)) := by
  simp only [Block.headed] at h
  split at h
  case isTrue hheader =>
      obtain rfl := List.mem_singleton.1 h
      exact ⟨rfl, by simpa using hheader⟩
  case isFalse => cases h

/-- Only contexts have names bound. -/
theorem headed_of_line? {b : Block} {l : Text} (own : b.line? = some l) :
    b.headed plan = [] := by
  cases b with
  | context => cases own
  | _ => rfl

/-- To write literals is to do nothing else. -/
theorem filter_write_literals (o : Object) {statements : List Statement}
    (h : ∀ st ∈ statements, st.isData = true) :
    (statements.map (Deed.write o .body)).filter (fun d => !d.isLiteral)
      = [] := by
  rw [List.filter_eq_nil_iff]
  intro d hd
  obtain ⟨st, hst, rfl⟩ := List.mem_map.1 hd
  simp [Deed.isLiteral, h st hst]

/-- Everything but literals is done in its order, and all of it where its
object is. -/
theorem Course.deeds
    (h : Course plan.bindable plan.created last bound owed bs out)
    (hexact : Exact bound gs')
    (halong : Alongside (opening plan bs ++ pending) gs gs')
    (hheaded : ∀ t ∈ headed, standing? gs' (tableAlias t) ≠ none)
    (hwritten : ∀ t ∈ plan.bindable, plan.data t ≠ [] → owed t = [] →
      standing? gs' (tableAlias t) ≠ none)
    (htold : ∀ b ∈ bs, b.Told)
    (hlast : ∀ b ∈ last, ∀ t, b.names? = some t → owed t ≠ [] → t ∈ pending)
    (hdata : ∀ t, owed t ≠ [] → plan.data t ≠ [])
    (hobject : ∀ t ∈ plan.bindable, object t = .table t)
    (hliteral : ∀ t, ∀ st ∈ owed t, st.isData = true)
    (hsteady : SteadyBlocks plan free object gs pending headed bs) :
    Homed object gs' out
      ∧ (deedsOf [] gs' (out.map Piece.chunk)).filter (fun d => !d.isLiteral)
        = (blockDeeds free object gs bs).filter fun d => !d.isLiteral := by
  -- `gs` is given in the log so far and `gs'` in its normal form: a binding
  -- is given in the second alone, a declaration that is dropped in the first
  induction h generalizing gs gs' pending headed with
  | done => exact ⟨trivial, rfl⟩
  | @binding _ bound _ bs c _ known unbound due place rest ih =>
      -- a binding does nothing, and its table comes right behind
      have hgive := given?_bindingLine c.table
      have hpending : c.table ∈ opening plan bs ++ pending :=
        mem_pending_of_binding known hlast due place
      obtain ⟨hhomed, hdeeds⟩ := ih
        (hexact.give (some (tableAlias c.table, some c.table)))
        (halong.bind hpending)
        (fun t ht => standing?_append_ne_none (hheaded t ht) _)
        (fun t ht hdue hpaid =>
          standing?_append_ne_none (hwritten t ht hdue hpaid) _)
        htold hlast hdata hliteral hsteady
      have hquiet : receiverOf? (bindingLine c.table) = none :=
        receiverOf?_of_declaration? (declaration?_bindingLine c.table)
      constructor
      · show Homed object
          (gs' ++ (given? (bindingLine c.table)).toList) _
        rw [hgive]
        exact hhomed
      · rw [deedsOf_line, Chunk.deeds, hquiet, hgive]
        exact hdeeds
  | @literals _ _ owed bs table _ due place bound rest ih =>
      -- the literals are written to the object that they were written to
      have hdenoted :=
        halong.homed hexact hobject bound (hsteady.placed place)
      obtain ⟨hhomed, hdeeds⟩ := ih hexact halong hheaded
        (fun t ht hdue hpaid => by
          by_cases htable : t = table
          · exact htable ▸ hdenoted.given
          · exact hwritten t ht hdue ((paid_of_ne owed htable) ▸ hpaid))
        htold
        (fun b hb t hnames hdue => hlast b hb t hnames (owed_of_paid hdue))
        (fun t hdue => hdata t (owed_of_paid hdue))
        (isData_paid hliteral table) hsteady
      refine ⟨⟨hdenoted, hhomed⟩, ?_⟩
      rw [deedsOf_context, List.filter_append,
        filter_write_literals _ (hliteral table), List.nil_append]
      exact hdeeds
  | @kept _ _ _ b l bs _ own rest ih =>
      -- a line calls the same object, for its receiver has not changed hands
      obtain ⟨hb, hbs⟩ := List.forall_mem_cons.1 htold
      have hgive := hb l own
      have halong : Alongside pending gs gs' := by
        cases b with
        | context => cases own
        | _ => exact halong
      have hrest := hsteady.2
      rw [headed_of_line? own, List.append_nil] at hrest
      obtain ⟨hhomed, hdeeds⟩ := ih (hexact.give b.gives?)
        ((halong.give b.gives?).mono (List.subset_append_of_subset_right _
          (List.subset_append_right _ _)))
        (fun t ht => standing?_append_ne_none (hheaded t ht) _)
        (fun t ht hdue hpaid =>
          standing?_append_ne_none (hwritten t ht hdue hpaid) _) hbs
        (fun b' hb' t hnames hdue => by
          cases hb'
          exact mem_pending_of_names? hnames (hdata t hdue))
        hdata hliteral hrest
      constructor
      · show Homed object (gs' ++ (given? l).toList) _
        rw [hgive]
        exact hhomed
      · rw [deedsOf_line, blockDeeds, List.filter_append, List.filter_append,
          hgive, hdeeds, halong.deeds_line hheaded own hgive hsteady.1]
  | @redundant _ _ _ table l bs _ bound rest ih =>
      -- what is dropped gives again what was given
      have hrest := hsteady.2
      rw [headed_of_line? rfl, List.append_nil] at hrest
      refine ih hexact ((halong.drop ((hexact _ _).1 bound)).mono
          (List.subset_append_of_subset_right _
            (List.subset_append_right _ _)))
        hheaded hwritten (List.forall_mem_cons.1 htold).2 ?_ hdata hliteral
        hrest
      rintro b' ⟨⟩ t hnames hdue
      exact mem_pending_of_names? hnames (hdata t hdue)
  | @context _ _ _ table region statements bs _ filled bound rest ih =>
      -- the header stands for the object that it stood for
      have hdenoted := halong.homed hexact hobject bound hsteady.1
      obtain ⟨hhomed, hdeeds⟩ := ih hexact
        (halong.mono (List.subset_append_right _ _))
        (fun t ht => by
          rcases List.mem_append.1 ht with ht | ht
          · exact hheaded t ht
          · rw [(mem_headed_context ht).1]
            exact hdenoted.given)
        hwritten (List.forall_mem_cons.1 htold).2
          (by rintro b' ⟨⟩ t ⟨⟩) hdata hliteral
        hsteady.behind_context
      refine ⟨⟨hdenoted, hhomed⟩, ?_⟩
      rw [deedsOf_context, blockDeeds, List.filter_append, List.filter_append,
        hdeeds, hdenoted.denoted]
      show _ = _ ++ List.filter _ (blockDeeds free object (gs ++ []) _)
      rw [List.append_nil]
      rfl
  | @empty _ _ owed table region bs _ settled rest ih =>
      -- a context of literals alone, which are all moved
      have hrest := ih hexact (halong.mono (List.subset_append_right _ _))
        (fun t ht => by
          rcases List.mem_append.1 ht with ht | ht
          · exact hheaded t ht
          -- its literals have been written, under its name
          · obtain ⟨rfl, hbindable, hheader⟩ := mem_headed_context ht
            obtain ⟨hdue, hcreated⟩ := hheader.resolve_left fun h => h rfl
            exact hwritten t hbindable hdue (settled hcreated))
        hwritten (List.forall_mem_cons.1 htold).2
          (by rintro b' ⟨⟩ t ⟨⟩) hdata hliteral
        hsteady.behind_context
      rw [blockDeeds]
      simpa [Block.gives?, Block.deeds] using hrest

end

-- ====================================================== literals of an object

section

variable {object : Text → Object}
  (hinjective : ∀ {t t'}, object t = object t' → t = t')

include hinjective

/-- Of the statements that are written to one table's object, the literals
of a table's object are those of the table's body. -/
theorem literals_write (t : Text) (region : Region)
    (statements : List Statement) (table : Text) :
    (statements.map (Deed.write (object t) region)).filter
      (Deed.isLiteralOn (object table))
      = ((if t = table ∧ region = .body then statements else []).filter
          Statement.isData).map
          (.write (object table) .body) := by
  rw [List.filter_map]
  by_cases hsame : t = table ∧ region = .body
  · obtain ⟨rfl, rfl⟩ := hsame
    rw [if_pos ⟨rfl, rfl⟩]
    congr 2
    funext st
    simp [Deed.isLiteralOn]
  · have hnone : statements.filter
        (Deed.isLiteralOn (object table) ∘ Deed.write (object t) region)
          = [] := by
      rw [List.filter_eq_nil_iff]
      intro st _ hliteral
      simp only [Function.comp, Deed.isLiteralOn, Bool.and_eq_true,
        decide_eq_true_eq]
        at hliteral
      exact hsame ⟨hinjective hliteral.1, hliteral.2.1⟩
    rw [hnone, if_neg hsame]
    rfl

omit hinjective in
/-- A call writes no literal. -/
theorem literals_call (free : List Text) (o : Object) (gs : List Giving)
    (l : Text) :
    ((receiverOf? l).toList.map fun name =>
      Deed.call (denoted free gs name) l).filter (Deed.isLiteralOn o)
        = [] := by
  rw [List.filter_eq_nil_iff]
  intro d hd
  obtain ⟨name, -, rfl⟩ := List.mem_map.1 hd
  exact Bool.false_ne_true

/-- The literals that pieces write to a table's object are the table's. -/
theorem literals_deedsOf {gs : List Giving} {ps : List Piece}
    (h : Homed object gs ps) (table : Text) :
    (deedsOf [] gs (ps.map Piece.chunk)).filter
        (Deed.isLiteralOn (object table))
      = (dataIn ps table).map (.write (object table) .body) := by
  induction ps generalizing gs with
  | nil => rfl
  | cons p ps ih =>
      rw [dataIn_cons, List.map_append]
      cases p with
      | line l =>
          rw [deedsOf_line, List.filter_append, ih h]
          exact congrArg (· ++ _) (literals_call [] (object table) gs l)
      | context c =>
          obtain ⟨hdenoted, hps⟩ := h
          rw [deedsOf_context, List.filter_append, hdenoted.denoted, ih hps,
            literals_write hinjective]
          rfl

/-- And so are those that blocks write. -/
theorem literals_blockDeeds (free : List Text) (gs : List Giving)
    (bs : List Block) (table : Text) :
    (blockDeeds free object gs bs).filter (Deed.isLiteralOn (object table))
      = (dataOf bs table).map (.write (object table) .body) := by
  induction bs generalizing gs with
  | nil => rfl
  | cons b bs ih =>
      have hdata : dataOf (b :: bs) table = b.data table ++ dataOf bs table :=
        List.flatMap_cons
      rw [blockDeeds, List.filter_append, hdata, List.map_append, ih,
        data_eq_filter]
      congr 1
      cases b with
      | context t region statements =>
          have hbody : (Block.context t region statements).body table
              = if t = table ∧ region = .body then statements else [] := by
            cases region <;> simp [Block.body]
          rw [hbody]
          exact literals_write hinjective t region statements table
      | line l mention => exact literals_call free (object table) gs l
      | _ => rfl

end

section

variable {object : Text → Object} {o : Object}

theorem literals_write_of_ne {t : Text} (h : object t ≠ o) (region : Region)
    (statements : List Statement) :
    (statements.map (Deed.write (object t) region)).filter (Deed.isLiteralOn o)
      = [] := by
  rw [List.filter_eq_nil_iff]
  intro d hd
  obtain ⟨st, -, rfl⟩ := List.mem_map.1 hd
  simp [Deed.isLiteralOn, h]

/-- Nothing is written to an object of no table. -/
theorem literals_deedsOf_of_ne (hne : ∀ t, object t ≠ o) {gs : List Giving}
    {ps : List Piece} (h : Homed object gs ps) :
    (deedsOf [] gs (ps.map Piece.chunk)).filter (Deed.isLiteralOn o)
      = [] := by
  induction ps generalizing gs with
  | nil => rfl
  | cons p ps ih =>
      cases p with
      | line l =>
          rw [deedsOf_line, List.filter_append, ih h, List.append_nil]
          exact literals_call [] o gs l
      | context c =>
          obtain ⟨hdenoted, hps⟩ := h
          rw [deedsOf_context, List.filter_append, hdenoted.denoted, ih hps,
            List.append_nil]
          exact literals_write_of_ne (hne c.table) c.region c.statements

theorem literals_blockDeeds_of_ne (hne : ∀ t, object t ≠ o)
    (free : List Text) (gs : List Giving) (bs : List Block) :
    (blockDeeds free object gs bs).filter (Deed.isLiteralOn o) = [] := by
  induction bs generalizing gs with
  | nil => rfl
  | cons b bs ih =>
      rw [blockDeeds, List.filter_append, ih, List.append_nil]
      cases b with
      | context t region statements =>
          exact literals_write_of_ne (hne t) region statements
      | line l mention => exact literals_call free o gs l
      | _ => rfl

end

-- ============================================================ the theorem

/-- Where literals are put makes no difference to everything else. -/
theorem blockDeeds_withoutData (free : List Text) (object : Text → Object)
    (gs : List Giving) (bs : List Block) :
    (blockDeeds free object gs (bs.map Block.withoutData)).filter
        (fun d => !d.isLiteral)
      = (blockDeeds free object gs bs).filter fun d => !d.isLiteral := by
  induction bs generalizing gs with
  | nil => rfl
  | cons b bs ih =>
      have hgives : b.withoutData.gives? = b.gives? := by
        cases b with
        | context table region statements => cases region <;> rfl
        | _ => rfl
      rw [List.map_cons, blockDeeds, blockDeeds, List.filter_append,
        List.filter_append, hgives, ih]
      congr 1
      cases b with
      | context table region statements =>
          cases region with
          | body =>
              show List.filter _ ((statements.filter _).map _)
                  = List.filter _ (statements.map _)
              rw [List.filter_map, List.filter_map, List.filter_filter]
              congr 2
              funext st
              simp [Deed.isLiteral]
          | _ => rfl
      | _ => rfl

theorem steadyBlocks_withoutData {plan : Plan} {free : List Text}
    {object : Text → Object} {gs : List Giving} {pending headed : List Text}
    {bs : List Block}
    (h : SteadyBlocks plan free object gs pending headed bs) :
    SteadyBlocks plan free object gs pending headed
      (bs.map Block.withoutData) := by
  induction bs generalizing gs pending headed with
  | nil => trivial
  | cons b bs ih =>
      obtain ⟨hb, hbs⟩ := h
      have hsame : b.withoutData.headed plan = b.headed plan := by
        have hstaying := staying_withoutData b
        cases b with
        | context table region statements =>
            cases region with
            | body =>
                unfold Block.withoutData Block.staying at hstaying
                unfold Block.withoutData Block.headed
                simp only [hstaying]
            | _ => rfl
        | _ => rfl
      rw [List.map_cons, SteadyBlocks, hsame]
      cases b with
      | context table region statements =>
          cases region <;> exact ⟨hb, ih hbs⟩
      | _ => exact ⟨hb, ih hbs⟩

/-- Joined contexts do what each of them did. -/
theorem deedsOf_joinPieces (free : List Text) (gs : List Giving)
    (ps : List Piece) :
    deedsOf free gs ((joinPieces ps).map Piece.chunk)
      = deedsOf free gs (ps.map Piece.chunk) := by
  refine joinPieces_induction (motive := fun ps qs => ∀ gs,
    deedsOf free gs (qs.map Piece.chunk)
      = deedsOf free gs (ps.map Piece.chunk)) (fun _ => rfl) ?_ ?_ ps gs
  · intro p ps qs ih gs
    rw [List.map_cons, List.map_cons, deedsOf, deedsOf, ih]
  · intro c d ps qs hscope ih gs
    obtain ⟨htable, hregion, -⟩ := sameScope_iff.1 hscope
    rw [← ih, deedsOf_context, deedsOf_context, deedsOf_context,
      ← List.append_assoc, ← htable, ← hregion, ← List.map_append]
    rfl

/-- Of two lists of deeds, everything but literals is the same and in the
same order, and so are the literals of each object. -/
structure SameDeeds (ds ds' : List Deed) : Prop where
  others : ds'.filter (fun d => !d.isLiteral) = ds.filter fun d => !d.isLiteral
  literals : ∀ object,
    ds'.filter (Deed.isLiteralOn object) = ds.filter (Deed.isLiteralOn object)

/-- The pieces of a steady script do what its lines do. -/
theorem sameDeeds_piecesOf {ls : List Text} (h : SteadyChunks (chunks ls)) :
    SameDeeds (chunkDeeds (chunks ls))
      (chunkDeeds
        ((piecesOf (parseBlocks ls).1 (parseBlocks ls).2).map
          Piece.chunk)) := by
  obtain ⟨out, hjoined, hcourse⟩ := exists_course ls
  obtain ⟨hblocks, hsteady⟩ := deedsOf_eq (List.nil_append (chunks ls)).symm h
  have hliteral : ∀ t, ∀ st ∈ dataOf (parseBlocks ls).1 t, st.isData = true :=
    fun t => isData_of_mem_dataOf
  let object := home (parseBlocks ls).2 (givingsIn (chunks ls))
  have hobject : ∀ t ∈ (parseBlocks ls).2, object t = .table t :=
    fun t ht => home_of_mem _ ht
  obtain ⟨hhomed, hothers⟩ := hcourse.deeds exact_nil (Alongside.nil _)
    (List.forall_mem_nil _) (fun _ _ hdue hpaid => absurd hpaid hdue)
    (told_parseBlocks ls) (fun b hb => by cases hb)
    (fun _ hdue => hdue) hobject hliteral (steadyBlocks_withoutData hsteady)
  unfold chunkDeeds
  rw [hjoined, hhomed.joinPieces.freeNames_eq_nil, deedsOf_joinPieces]
  refine ⟨?_, fun o => ?_⟩
  · -- literals are the only deeds that are moved
    rw [hothers, blockDeeds_withoutData]
    exact congrArg _ hblocks.symm
  · show _ = List.filter _ (deedsOf _ (givingsIn []) (chunks ls))
    rw [hblocks]
    by_cases ho : ∃ table, object table = o
    · -- an object of a table
      obtain ⟨table, rfl⟩ := ho
      refine (literals_deedsOf home_injective hhomed table).trans ?_
      rw [dataIn_course hcourse]
      exact (literals_blockDeeds home_injective _ _ _ table).symm
    · -- an object of none, to which no literal is written
      have hne : ∀ table, object table ≠ o :=
        fun table htable => ho ⟨table, htable⟩
      rw [literals_deedsOf_of_ne hne hhomed]
      exact (literals_blockDeeds_of_ne hne _ _ _).symm

end GridScript.Script
