/-
What names stand for, told from the lines alone. A line at the margin gives
a name away: the creation or the declaration of a table gives it to that
table, and every other assignment to something that is no table. Read from
the top, a name stands for what it was given to last.

# Blocks and lines

The first pass of the normal form turns lines into blocks and the second
turns blocks into lines, and neither changes what is given
(`told_blockOf`): a creation is written behind its name and a declaration
without the blanks at its end, and both are read back as what they were.
Headers and the lines under them give nothing (`givings_render`).
-/
import GridScript.Proofs.Script.Calls
import GridScript.Proofs.Script.Joining

namespace GridScript.Script

open Text (isBlank allBlank)

-- =============================================================== givings

/-- A name and the table that it is given to; none if it is given to
something else. -/
abbrev Giving := Text × Option Text

/-- The name that a line gives away. -/
def given? (l : Text) : Option Giving :=
  match creation? (tokens l) with
  | some c => some (c.binding.getD (tableAlias c.table), some c.table)
  | none =>
    match declaration? (tokens l) with
    | some (name, table) => some (name, some table)
    | none => (marginTarget? l).map fun name => (name, none)

/-- What lines give away, in their order. -/
def givings (ls : List Text) : List Giving := ls.filterMap given?

theorem givings_cons (l : Text) (ls : List Text) :
    givings (l :: ls) = (given? l).toList ++ givings ls := by
  unfold givings
  rw [List.filterMap_cons]
  cases given? l <;> rfl

theorem givings_append (ls ms : List Text) :
    givings (ls ++ ms) = givings ls ++ givings ms :=
  List.filterMap_append

/-- What a name stands for behind givings: a table, or something else, or
nothing as long as it was not given away. -/
def standing? (gs : List Giving) (name : Text) : Option (Option Text) :=
  gs.reverse.lookup name

@[simp] theorem standing?_nil (name : Text) : standing? [] name = none := rfl

/-- What is given later counts. -/
theorem standing?_append (gs hs : List Giving) (name : Text) :
    standing? (gs ++ hs) name
      = (standing? hs name).or (standing? gs name) := by
  unfold standing?
  rw [List.reverse_append, List.lookup_append]

@[simp] theorem standing?_singleton (g : Giving) (name : Text) :
    standing? [g] name = if name = g.1 then some g.2 else none := by
  obtain ⟨given, table⟩ := g
  unfold standing?
  rw [List.reverse_singleton, List.lookup_cons, List.lookup_nil]
  by_cases hname : name = given
  · simp [hname]
  · simp [beq_eq_false_iff_ne.2 hname, hname]

/-- A name stands for something exactly if it was given away. -/
theorem standing?_eq_none_iff {gs : List Giving} {name : Text} :
    standing? gs name = none ↔ ∀ g ∈ gs, g.1 ≠ name := by
  unfold standing?
  rw [List.lookup_eq_none_iff]
  constructor
  · intro h g hg
    exact (bne_iff_ne.1 (h g (List.mem_reverse.2 hg))).symm
  · intro h g hg
    exact bne_iff_ne.2 (h g (List.mem_reverse.1 hg)).symm

/-- The table that a name was given to last, whatever it was given to
since. -/
def named? (gs : List Giving) (name : Text) : Option Text :=
  gs.reverse.findSome? fun g => if g.1 = name then g.2 else none

@[simp] theorem named?_nil (name : Text) : named? [] name = none := rfl

theorem named?_append (gs hs : List Giving) (name : Text) :
    named? (gs ++ hs) name = (named? hs name).or (named? gs name) := by
  unfold named?
  rw [List.reverse_append, List.findSome?_append]

@[simp] theorem named?_singleton (g : Giving) (name : Text) :
    named? [g] name = if g.1 = name then g.2 else none := by
  unfold named?
  rw [List.reverse_singleton, List.findSome?_singleton]

/-- A name that stands for a table was given to it last. -/
theorem named?_of_standing? {gs : List Giving} {name table : Text}
    (h : standing? gs name = some (some table)) :
    named? gs name = some table := by
  unfold standing? at h
  unfold named?
  generalize gs.reverse = newest at h ⊢
  induction newest with
  | nil => cases h
  | cons g rest ih =>
      obtain ⟨given, target⟩ := g
      rw [List.lookup_cons] at h
      rw [List.findSome?_cons]
      by_cases hname : name = given
      · rw [beq_iff_eq.2 hname] at h
        injection h with h
        rw [if_pos hname.symm, h]
      · rw [beq_eq_false_iff_ne.2 hname] at h
        rw [if_neg (Ne.symm hname), ih h]

-- ======================================================= the line of a block

/-- The line that a block by itself is written as. -/
def Block.line? : Block → Option Text
  | creation binding table call =>
    some (binding.getD (tableAlias table) ++ " = ".toList ++ call)
  | declaration _ _ l => some l
  | line l _ => some l
  | context .. => none

/-- The name that a block gives away. -/
def Block.gives? : Block → Option Giving
  | creation binding table _ =>
      some (binding.getD (tableAlias table), some table)
  | declaration name table _ => some (name, some table)
  | line l _ => (marginTarget? l).map fun name => (name, none)
  | context .. => none

/-- The line of the block gives away what the block does. -/
def Block.Told (b : Block) : Prop := ∀ l ∈ b.line?, given? l = b.gives?

/-- Where literals are put makes no difference to what is told. -/
theorem told_withoutData {b : Block} : b.withoutData.Told ↔ b.Told := by
  cases b with
  | context table region statements => cases region <;> exact Iff.rfl
  | _ => exact Iff.rfl

theorem given?_of_creation? {l : Text} {c : Creation}
    (h : creation? (tokens l) = some c) :
    given? l = some (c.binding.getD (tableAlias c.table), some c.table) := by
  unfold given?
  rw [h]

theorem given?_of_declaration? {l name table : Text}
    (h : declaration? (tokens l) = some (name, table)) :
    given? l = some (name, some table) := by
  unfold given?
  rw [creation?_of_declaration? h, h]

theorem given?_of_line {l : Text} (hcreation : creation? (tokens l) = none)
    (hdeclaration : declaration? (tokens l) = none) :
    given? l = (marginTarget? l).map fun name => (name, none) := by
  unfold given?
  rw [hcreation, hdeclaration]

/-- The name that a chunk gives away. -/
def Chunk.gives? : Chunk → Option Giving
  | line l => given? l
  | context .. => none

/-- The block of a chunk gives away what the chunk does. -/
theorem gives?_blockOf (n : Names) (c : Chunk) :
    (blockOf n c).1.gives? = c.gives? := by
  cases c with
  | context header body => rfl
  | line l =>
      show (blockOf n (Piece.line l).chunk).1.gives? = given? l
      rcases Piece.cases_line l
        with ⟨c, h⟩ | ⟨name, table, h⟩ | ⟨hcreation, hdeclaration⟩
      · rw [given?_of_creation? h, blockOf_creation h]
        rfl
      · rw [given?_of_declaration? h, blockOf_declaration h]
        rfl
      · rw [given?_of_line hcreation hdeclaration,
          blockOf_line hcreation hdeclaration]
        rfl

/-- The line that a block is written as gives away what the block does. -/
theorem told_blockOf (n : Names) (c : Chunk) : (blockOf n c).1.Told := by
  cases c with
  | context header body => intro l hl; cases hl
  | line l =>
      show (blockOf n (Piece.line l).chunk).1.Told
      rcases Piece.cases_line l
        with ⟨c, h⟩ | ⟨name, table, h⟩ | ⟨hcreation, hdeclaration⟩
      · rw [blockOf_creation h]
        rintro _ ⟨⟩
        rw [given?_of_creation?
          (creation?_rebound (reads_tokens l) h (isWord_binding h))]
        rfl
      · rw [blockOf_declaration h]
        rintro _ ⟨⟩
        exact given?_of_declaration? (declaration?_trimEnd h)
      · rw [blockOf_line hcreation hdeclaration]
        rintro _ ⟨⟩
        exact given?_of_line hcreation hdeclaration

-- ================================================================ reading

theorem blocksOf_cons (n : Names) (c : Chunk) (cs : List Chunk) :
    blocksOf n (c :: cs)
      = ((blockOf n c).1 :: (blocksOf (blockOf n c).2 cs).1,
        (blocksOf (blockOf n c).2 cs).2) :=
  rfl

theorem blocksOf_append (n : Names) (cs ds : List Chunk) :
    blocksOf n (cs ++ ds)
      = ((blocksOf n cs).1 ++ (blocksOf (blocksOf n cs).2 ds).1,
          (blocksOf (blocksOf n cs).2 ds).2) := by
  induction cs generalizing n with
  | nil => rfl
  | cons c cs ih =>
      rw [List.cons_append, blocksOf_cons, blocksOf_cons, ih]; rfl

theorem blockOf_header (n : Names) (header : Header) (body : List Statement) :
    blockOf n (.context header body)
      = (.context (resolve n header.table).1 header.region body,
        (resolve n header.table).2) := rfl

/-- A header gives no name away. -/
theorem aliases_resolve (n : Names) (table : HeaderTable) :
    (resolve n table).2.aliases = n.aliases := by
  cases table with
  | id table => rfl
  | name given =>
      rw [resolve]
      cases n.aliases.lookup given <;> rfl

theorem assigned_resolve (n : Names) (table : HeaderTable) :
    (resolve n table).2.assigned = n.assigned := by
  cases table with
  | id table => rfl
  | name given =>
      rw [resolve]
      cases n.aliases.lookup given <;> rfl

/-- What chunks give away, in their order. -/
def givingsIn (cs : List Chunk) : List Giving := cs.filterMap Chunk.gives?

theorem givingsIn_cons (c : Chunk) (cs : List Chunk) :
    givingsIn (c :: cs) = c.gives?.toList ++ givingsIn cs := by
  unfold givingsIn
  rw [List.filterMap_cons]
  cases c.gives? <;> rfl

theorem givingsIn_append (cs ds : List Chunk) :
    givingsIn (cs ++ ds) = givingsIn cs ++ givingsIn ds :=
  List.filterMap_append

theorem told_blocksOf (n : Names) (cs : List Chunk) :
    ∀ b ∈ (blocksOf n cs).1, b.Told := by
  induction cs generalizing n with
  | nil => exact fun b hb => by cases hb
  | cons c cs ih =>
      rw [blocksOf]
      exact List.forall_mem_cons.2 ⟨told_blockOf n c, ih _⟩

/-- The names behind a chunk: those that it gives to tables are known for
them. -/
theorem aliases_blockOf (n : Names) (c : Chunk) (name : Text) :
    (blockOf n c).2.aliases.lookup name
      = (named? c.gives?.toList name).or (n.aliases.lookup name) := by
  cases c with
  | context header body =>
      rw [blockOf_header, aliases_resolve]
      rfl
  | line l =>
      have hbound : ∀ given table : Text,
          (n.bind given table).aliases.lookup name
          = (named? [(given, some table)] name).or
            (n.aliases.lookup name) := by
        intro given table
        rw [named?_singleton]
        simp only [Names.bind, Aliases.lookup_rebind, eq_comm (a := name)]
        split <;> rfl
      show (blockOf n (Piece.line l).chunk).2.aliases.lookup name
        = (named? (given? l).toList name).or (n.aliases.lookup name)
      rcases Piece.cases_line l
        with ⟨c, h⟩ | ⟨given, table, h⟩ | ⟨hcreation, hdeclaration⟩
      · rw [given?_of_creation? h, blockOf_creation h]
        exact hbound _ _
      · rw [given?_of_declaration? h, blockOf_declaration h]
        exact hbound given table
      -- any other line may take a name away
      · rw [given?_of_line hcreation hdeclaration,
          blockOf_line hcreation hdeclaration, aliases_afterLine]
        cases marginTarget? l with
        | none => rfl
        | some given =>
            rw [Option.map_some, Option.toList_some, named?_singleton]
            split <;> rfl

theorem aliases_blocksOf (n : Names) (cs : List Chunk) (name : Text) :
    (blocksOf n cs).2.aliases.lookup name
      = (named? (givingsIn cs) name).or (n.aliases.lookup name) := by
  induction cs generalizing n with
  | nil => rfl
  | cons c cs ih =>
      rw [blocksOf, givingsIn_cons, named?_append,
        Option.or_assoc, ← aliases_blockOf]
      exact ih _

/-- A local name stands for the table that it was given to last. -/
theorem lookup_aliases (cs : List Chunk) (name : Text) :
    (blocksOf .none cs).2.aliases.lookup name
      = named? (givingsIn cs) name := by
  rw [aliases_blocksOf]
  exact Option.or_none

/-- The names that are assigned behind a chunk: the one that it gives away
is one of them. -/
theorem mem_assigned_blockOf {n : Names} {c : Chunk} {name : Text} :
    name ∈ (blockOf n c).2.assigned
      ↔ (∃ g ∈ c.gives?, g.1 = name) ∨ name ∈ n.assigned := by
  cases c with
  | context header body =>
      rw [blockOf_header, assigned_resolve]
      exact ⟨Or.inr, fun h => h.resolve_left fun ⟨g, hg, _⟩ => by cases hg⟩
  | line l =>
      have hbound : ∀ (given table : Text) (target : Option Text),
          name ∈ (n.bind given table).assigned
            ↔ (∃ g ∈ some ((given, target) : Giving), g.1 = name)
              ∨ name ∈ n.assigned := by
        intro given table target
        simp only [Names.bind, Names.assign, Names.know, List.mem_insert_iff,
          Option.mem_def, Option.some.injEq, exists_eq_left',
          eq_comm (a := name)]
      show name ∈ (blockOf n (Piece.line l).chunk).2.assigned
        ↔ (∃ g ∈ given? l, g.1 = name) ∨ name ∈ n.assigned
      rcases Piece.cases_line l
        with ⟨c, h⟩ | ⟨given, table, h⟩ | ⟨hcreation, hdeclaration⟩
      · rw [given?_of_creation? h, blockOf_creation h]
        exact hbound _ _ _
      · rw [given?_of_declaration? h, blockOf_declaration h]
        exact hbound given table _
      · rw [given?_of_line hcreation hdeclaration,
          blockOf_line hcreation hdeclaration]
        unfold Names.afterLine
        cases marginTarget? l with
        | none => cases mention? n.aliases (tokens l) <;> simp [Names.know]
        | some given =>
            cases mention? n.aliases (tokens l) <;>
              simp [Names.know, Names.assign, eq_comm]

/-- The names that are assigned are those that are given away. -/
theorem mem_assigned_blocksOf {n : Names} {cs : List Chunk} {name : Text} :
    name ∈ (blocksOf n cs).2.assigned
      ↔ (∃ g ∈ givingsIn cs, g.1 = name) ∨ name ∈ n.assigned := by
  induction cs generalizing n with
  | nil =>
      exact ⟨Or.inr, fun h => h.resolve_left fun ⟨g, hg, _⟩ => by cases hg⟩
  | cons c cs ih =>
      rw [blocksOf_cons, ih, mem_assigned_blockOf, givingsIn_cons]
      simp only [List.mem_append, Option.mem_toList, or_and_right, exists_or]
      constructor
      · rintro (h | h | h)
        · exact Or.inl (Or.inr h)
        · exact Or.inl (Or.inl h)
        · exact Or.inr h
      · rintro ((h | h) | h)
        · exact Or.inr (Or.inl h)
        · exact Or.inl h
        · exact Or.inr (Or.inr h)

/-- A name that is given to nothing is not assigned. -/
theorem mem_assigned_iff {cs : List Chunk} {name : Text} :
    name ∈ (blocksOf .none cs).2.assigned
      ↔ standing? (givingsIn cs) name ≠ none := by
  rw [mem_assigned_blocksOf, ne_eq, standing?_eq_none_iff]
  simp [Names.none]

-- ========================================================== written lines

/-- The line that binds a local name gives it to its table. -/
theorem given?_bindingLine (table : Text) :
    given? (bindingLine table) = some (tableAlias table, some table) :=
  given?_of_declaration? (declaration?_bindingLine table)

-- ============================================================ quiet lines

/-- Without an equals sign nothing is assigned. -/
theorem cutAtAssign?_of_no_equals {ts : List Token} (h : Token.mark '=' ∉ ts)
    (depth : Nat) (last : Option Char) :
    cutAtAssign? depth last ts = none := by
  induction ts generalizing depth last with
  | nil => rfl
  | cons t ts ih =>
      rw [List.mem_cons, not_or] at h
      cases t with
      | word w => rw [cutAtAssign?, ih h.2]; rfl
      | quoted spelling text => rw [cutAtAssign?, ih h.2]; rfl
      | mark c =>
          have hc : ¬(c = '=' ∧ depth = 0) :=
            fun hboth => h.1 (by rw [hboth.1])
          rw [cutAtAssign?, if_neg hc, ih h.2]
          split <;> rfl

/-- A line that begins with a blank is no creation and no declaration. -/
theorem given?_of_blank_head {c : Char} {t : Text} (h : isBlank c = true) :
    given? (c :: t)
      = (marginTarget? (c :: t)).map fun name => (name, none) := by
  have htokens : tokens (c :: t) = .mark c :: tokens t :=
    tokens_mark (isQuote_of_isBlank h) (isWordStart_of_isBlank h) t
  exact given?_of_line (by rw [htokens]; rfl) (by rw [htokens]; rfl)

/-- An indented line gives no name away. -/
theorem given?_of_indented {l : Text} (h : 0 < indentWidth l) :
    given? l = none := by
  cases l with
  | nil => cases h
  | cons c t =>
      have hblank : isBlank c = true := by
        cases hc : isBlank c with
        | true => rfl
        | false =>
            rw [indentWidth_cons_of_not_blank hc] at h
            cases h
      rw [given?_of_blank_head hblank, marginTarget?, if_neg (by omega)]
      rfl

/-- A blank line gives no name away. -/
theorem given?_of_allBlank {l : Text} (h : allBlank l = true) :
    given? l = none := by
  have hassign : assignment? l = none := by
    have hnone : Token.mark '=' ∉ tokens l := by
      rw [tokens_blank h, List.mem_map]
      rintro ⟨c, hc, heq⟩
      injection heq with heq
      have hblank := Text.allBlank_iff.1 h c hc
      rw [heq] at hblank
      cases hblank
    unfold assignment?
    rw [cutAtAssign?_of_no_equals hnone]
    rfl
  cases l with
  | nil =>
      rw [given?_of_line (by rw [tokens_nil]; rfl) (by rw [tokens_nil]; rfl),
        marginTarget?, hassign]; rfl
  | cons c t =>
      rw [Text.allBlank_cons, Bool.and_eq_true] at h
      rw [given?_of_blank_head h.1, marginTarget?, hassign]
      split <;> rfl

/-- A header gives no name away. -/
theorem given?_of_header? {l : Text} {header : Header}
    (h : header? (tokens l) = some header) :
    given? l = none := by
  obtain ⟨ts₁, ts₂, htokens, hequals⟩ := exists_open_of_header? h
  -- a header has no equals sign in front of its parenthesis
  have hopen : Token.mark '=' ∉ Token.word "with".toList :: ts₁ := by
    simpa using hequals
  have hassign : assignment? l = none := assignment?_of_open hopen htokens
  have hbinding : eatBinding? (tokens l) = none := by
    cases heat : eatBinding? (tokens l) with
    | none => rfl
    | some found =>
        obtain ⟨name, rest⟩ := found
        rw [header?_of_eatBinding? heat] at h
        cases h
  have hdeclaration : declaration? (tokens l) = none := by
    unfold declaration?
    rw [hbinding]
    rfl
  have hcreation : creation? (tokens l) = none := by
    unfold creation? cutBinding
    rw [hbinding, htokens]
    rfl
  rw [given?_of_line hcreation hdeclaration, marginTarget?, hassign]
  split <;> rfl

/-- A header gives no name away. -/
theorem given?_headerLine (table : Text) (region : Region) :
    given? (headerLine table region) = none :=
  given?_of_header? (header?_headerLine table region)

/-- The line of a piece by itself. -/
def Piece.line? : Piece → Option Text
  | line l => some l
  | context _ => none

/-- The lines that pieces have besides their contexts. -/
def linesIn (ps : List Piece) : List Text := ps.filterMap Piece.line?

theorem linesIn_line (l : Text) (ps : List Piece) :
    linesIn (.line l :: ps) = l :: linesIn ps := rfl

theorem linesIn_context (c : Context) (ps : List Piece) :
    linesIn (.context c :: ps) = linesIn ps := rfl

/-- Of what pieces are written as, their lines alone give names away. -/
theorem givings_render (ps : List Piece) :
    givings (ps.flatMap Piece.render) = givings (linesIn ps) := by
  induction ps with
  | nil => rfl
  | cons p ps ih =>
      rw [List.flatMap_cons, givings_append, ih]
      cases p with
      | line l => exact (givings_append [l] (linesIn ps)).symm
      | context c =>
          have hquiet : givings (Piece.context c).render = [] := by
            refine List.filterMap_eq_nil_iff.2 ?_
            intro l hl
            rcases List.mem_cons.1 hl with rfl | hl
            · exact given?_headerLine c.table c.region
            · obtain ⟨st, -, hl⟩ := List.mem_flatMap.1 hl
              obtain ⟨m, -, rfl⟩ := List.mem_map.1 hl
              refine given?_of_indented ?_
              rw [indentWidth_indent]
              omega
          rw [hquiet, linesIn_context, List.nil_append]

theorem linesIn_joinPieces (ps : List Piece) :
    linesIn (joinPieces ps) = linesIn ps := by
  refine joinPieces_induction (motive := fun ps qs => linesIn qs = linesIn ps)
    rfl ?_ ?_ ps
  · intro p ps qs ih
    cases p with
    | line l => rw [linesIn_line, linesIn_line, ih]
    | context c => exact ih
  · exact fun c d ps qs _ ih => ih

end GridScript.Script
