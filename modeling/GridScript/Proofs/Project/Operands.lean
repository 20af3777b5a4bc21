/-
The arguments of aggregates as exported operands. An argument may hold any
mix of letters, digits and the marks of an address. Without its dollar signs
it is cut at its last point. What stands behind the point has to be a cell
or two cells with a colon between, or the formula is not exported; then the
operand takes in exactly these cells, though it is a half-open slice and
they are given by any two corners (`covers_slice`). The one exception is a
range down to the last row that there can be: no word is left to end the
slice with, and it ends in front of the first row (`Overruns`).

What stands in front of the point is the name of the table, whatever it is.
If there is a colon in it, the argument has been cut apart in the middle of
a range, and the operand belongs to no table that it names
(`operands_cover`).
-/
import GridScript.Proofs.Project.Expressions

namespace GridScript.Export

open Formula (isAggregateArgument isReferenceChar)
open Text (Solid)

-- ============================================================== arguments

/-- An argument without its dollar signs. -/
def unmarked (argument : Text) : Text := argument.filter (· != '$')

/-- The text is a cell, or two cells with a colon between: the corners. -/
inductive NamesCells : Text → Nat × Nat → Nat × Nat → Prop
  | cell {name : Text} {p : Nat × Nat}
    (h : Spells name p.1 p.2) : NamesCells name p p
  | range {a b : Text} {p q : Nat × Nat} (ha : Spells a p.1 p.2)
    (hb : Spells b q.1 q.2) :
    NamesCells (a ++ ':' :: b) p q

/-- The text names cells, of the table in front of its point if there is
one. -/
def Refers (argument : Text) : Option Text → Nat × Nat → Nat × Nat → Prop
  | none, p, q => NamesCells argument p q
  | some table, p, q =>
      ∃ cells, argument = table ++ '.' :: cells ∧ NamesCells cells p q

/-- The argument is a number, or refers to cells that fit. -/
def Readable (argument : Text) : Prop :=
  Number.isNumeral argument = true
    ∨ ∃ table p q, Refers (unmarked argument) table p q ∧ Fits p.1 p.2
      ∧ Fits q.1 q.2

namespace NamesCells

variable {cells : Text} {p q : Nat × Nat}

/-- The text is cut at its colon, if it has one. -/
theorem cases_colon (h : NamesCells cells p q) :
    (':' ∉ cells ∧ Spells cells p.1 p.2 ∧ q = p)
      ∨ ∃ a b, cells = a ++ ':' :: b ∧ ':' ∉ a ∧ Spells a p.1 p.2
        ∧ Spells b q.1 q.2 := by
  cases h with
  | cell h =>
      exact Or.inl ⟨not_mem_of_isCellName h.isCellName (by decide), h, rfl⟩
  | range ha hb =>
      exact Or.inr
        ⟨_, _, rfl, not_mem_of_isCellName ha.isCellName (by decide), ha, hb⟩

/-- No point occurs among cells. -/
theorem point_not_mem (h : NamesCells cells p q) : '.' ∉ cells := by
  cases h with
  | cell h => exact not_mem_of_isCellName h.isCellName (by decide)
  | range ha hb =>
      have hfirst : '.' ∉ _ := not_mem_of_isCellName ha.isCellName (by decide)
      have hsecond : '.' ∉ _ := not_mem_of_isCellName hb.isCellName (by decide)
      simp [hfirst, hsecond]

/-- The corners are told by the text. -/
theorem unique (h : NamesCells cells p q) {p' q' : Nat × Nat}
    (h' : NamesCells cells p' q') :
    p = p' ∧ q = q' := by
  rcases h.cases_colon with ⟨hcolon, hp, rfl⟩ | ⟨a, b, rfl, ha, hp, hq⟩
  · rcases h'.cases_colon with ⟨-, hp', rfl⟩ | ⟨a', b', rfl, -, -, -⟩
    · have hsame := Prod.ext_iff.2 (hp.unique hp')
      exact ⟨hsame, hsame⟩
    · simp at hcolon
  · rcases h'.cases_colon with ⟨hcolon, -, -⟩ | ⟨a', b', heq, ha', hp', hq'⟩
    · simp at hcolon
    · have hcut := Text.cutAtFirst?_append ha b
      rw [heq, Text.cutAtFirst?_append ha' b'] at hcut
      injection hcut with hcut
      injection hcut with haa hbb
      subst haa hbb
      exact ⟨Prod.ext_iff.2 (hp.unique hp'), Prod.ext_iff.2 (hq.unique hq')⟩

end NamesCells

namespace Refers

variable {s : Text} {table : Option Text} {p q : Nat × Nat}

/-- The text is cut at its last point. -/
theorem iff_cut :
    Refers s table p q
      ↔ ∃ cells, cutTable s = (table, cells) ∧ NamesCells cells p q := by
  unfold cutTable
  constructor
  · intro h
    cases table with
    | none =>
        have hcells : NamesCells s p q := h
        rw [Text.cutAtLast?_of_not_mem hcells.point_not_mem]
        exact ⟨s, rfl, hcells⟩
    | some table =>
        obtain ⟨cells, rfl, hcells⟩ := h
        rw [Text.cutAtLast?_append hcells.point_not_mem]
        exact ⟨cells, rfl, hcells⟩
  · rintro ⟨cells, hcut, hcells⟩
    split at hcut
    next front back hfound =>
        cases hcut
        exact ⟨cells, (Text.cutAtLast?_eq_some hfound).1, hcells⟩
    next =>
        cases hcut
        exact hcells

/-- An argument refers to the cells between two corners and to no other. -/
theorem unique (h : Refers s table p q) {table' : Option Text}
    {p' q' : Nat × Nat} (h' : Refers s table' p' q') :
    table = table' ∧ p = p' ∧ q = q' := by
  obtain ⟨cells, hcut, hcells⟩ := iff_cut.1 h
  obtain ⟨cells', hcut', hcells'⟩ := iff_cut.1 h'
  rw [hcut] at hcut'
  cases hcut'
  exact ⟨rfl, hcells.unique hcells'⟩

/-- There is a colon in the name of the table if there is one anywhere in
front of a point. -/
theorem colon_mem_iff (h : Refers s table p q) :
    (∃ name ∈ table, ':' ∈ name) ↔ [':', '.'].Sublist s := by
  cases table with
  | none =>
      have hpoint : '.' ∉ s := NamesCells.point_not_mem h
      refine iff_of_false (fun ⟨name, hname, _⟩ => by cases hname)
        fun hsub => ?_
      exact hpoint (hsub.subset (by simp))
  | some table =>
      obtain ⟨cells, rfl, hcells⟩ := h
      constructor
      · rintro ⟨name, hname, hcolon⟩
        cases hname
        exact (List.singleton_sublist.2 hcolon).append
          (List.singleton_sublist.2 List.mem_cons_self)
      · intro hsub
        refine ⟨table, rfl, ?_⟩
        obtain ⟨front, back, heq, hfront, hback⟩ :=
          List.sublist_append_iff.1 hsub
        cases front with
        | cons c front =>
            have hcolon : ':' = c := (List.cons.inj heq).1
            rw [hcolon]
            exact hfront.subset List.mem_cons_self
        | nil =>
            -- behind the last point there is none
            rw [List.nil_append] at heq
            subst heq
            rcases List.sublist_cons_iff.1 hback with hback | ⟨rest, heq, -⟩
            · exact absurd (hback.subset (by simp)) hcells.point_not_mem
            · cases heq

end Refers

-- =============================================================== operands

/-- The cell lies between the corners, both of them included. -/
def Between (p q : Nat × Nat) (row col : Nat) : Prop :=
  (min p.1 q.1 ≤ row ∧ row ≤ max p.1 q.1) ∧ min p.2 q.2 ≤ col
    ∧ col ≤ max p.2 q.2

/-- The slice of an array from a row and a column up to, but not including,
others. -/
def halfOpen (array : Text) (top bottom left right : Nat) : Text :=
  array ++ '[' :: (Number.decimal top ++ ':' :: Number.decimal bottom)
    ++ ", ".toList
    ++ (Number.decimal left ++ ':' :: Number.decimal right) ++ [']']

/-- The operand is an element or a slice of the array, and takes in exactly
the cells between the corners. -/
def Covers (operand array : Text) (p q : Nat × Nat) : Prop :=
  (∃ row col, operand = element array row col ∧ ∀ r c, Between p q r c
    ↔ r = row ∧ c = col)
    ∨ ∃ top bottom left right, operand = halfOpen array top bottom left right
      ∧ ∀ r c, Between p q r c ↔ (top ≤ r ∧ r < bottom) ∧ left ≤ c ∧ c < right

theorem covers_element (array : Text) (p : Nat × Nat) :
    Covers (element array p.1 p.2) array p p := by
  refine Or.inl ⟨p.1, p.2, rfl, fun r c => ?_⟩
  unfold Between
  omega

/-- The columns of a slice end behind the last one. -/
theorem slice_ofCorners (array : Text) (region : Region) {p q : Nat × Nat}
    (hp : Fits p.1 p.2) (hq : Fits q.1 q.2) :
    slice array (.ofCorners region p q)
      = halfOpen array (min p.1 q.1) (Number.wordAfter (max p.1 q.1))
          (min p.2 q.2) (max p.2 q.2 + 1) := by
  have hlast : max p.2 q.2 + 1 < Number.wordBound := by
    have hleft := hp.2
    have hright := hq.2
    omega
  unfold slice CellRange.ofCorners halfOpen
  simp only [Number.wordAfter_of_lt hlast]

theorem covers_slice (array : Text) (region : Region) {p q : Nat × Nat}
    (hp : Fits p.1 p.2) (hq : Fits q.1 q.2)
    (hlast : max p.1 q.1 + 1 ≠ Number.wordBound) :
    Covers (slice array (.ofCorners region p q)) array p q := by
  have hrow : max p.1 q.1 + 1 < Number.wordBound := by
    have hfirst := hp.1
    have hsecond := hq.1
    omega
  rw [slice_ofCorners array region hp hq, Number.wordAfter_of_lt hrow]
  refine Or.inr ⟨_, _, _, _, rfl, fun r c => ?_⟩
  unfold Between
  omega

/-- There is a colon behind the last point. -/
def IsRange (s : Text) : Prop :=
  ∃ front back, s = front ++ ':' :: back ∧ '.' ∉ back

theorem isRange_iff {s : Text} : IsRange s ↔ ':' ∈ (cutTable s).2 := by
  unfold cutTable
  cases hcut : Text.cutAtLast? '.' s with
  | none =>
      have hpoint : '.' ∉ s := Text.not_mem_of_cutAtLast? hcut
      constructor
      · rintro ⟨front, back, rfl, -⟩
        exact List.mem_append_right _ List.mem_cons_self
      · intro hcolon
        obtain ⟨front, back, rfl⟩ := List.append_of_mem hcolon
        exact ⟨front, back, rfl, fun hmem =>
          hpoint (List.mem_append_right _ (List.mem_cons_of_mem _ hmem))⟩
  | some parts =>
      obtain ⟨table, cells⟩ := parts
      obtain ⟨rfl, hpoint⟩ := Text.cutAtLast?_eq_some hcut
      constructor
      · rintro ⟨front, back, heq, hback⟩
        rcases List.append_eq_append_iff.1 heq
          with ⟨more, rfl, hmore⟩ | ⟨more, rfl, hmore⟩
        · -- the colon comes behind the point
          cases more with
          | nil => cases hmore
          | cons c more =>
              injection hmore with _ hcells
              rw [hcells]
              exact List.mem_append_right _ List.mem_cons_self
        · -- the point comes behind the colon, where there is none
          cases more with
          | nil => cases hmore
          | cons c more =>
              injection hmore with _ hmore
              rw [hmore] at hback
              exact absurd (List.mem_append_right _ List.mem_cons_self) hback
      · intro hcolon
        obtain ⟨a, b, rfl⟩ := List.append_of_mem hcolon
        refine ⟨table ++ '.' :: a, b, by simp, fun hmem => hpoint ?_⟩
        exact List.mem_append_right _ (List.mem_cons_of_mem _ hmem)

instance (s : Text) : Decidable (IsRange s) :=
  decidable_of_iff _ isRange_iff.symm

/-- The text is a range down to the last row that there can be. -/
def Overruns (s : Text) (p q : Nat × Nat) : Prop :=
  IsRange s ∧ max p.1 q.1 + 1 = Number.wordBound

/-- The operand covers the cells between the corners; but one that overruns
is a slice that ends in front of row zero, and takes in none. -/
def TakesIn (s operand array : Text) (p q : Nat × Nat) : Prop :=
  (¬Overruns s p q → Covers operand array p q)
    ∧ (Overruns s p q →
      operand = halfOpen array (min p.1 q.1) 0 (min p.2 q.2) (max p.2 q.2 + 1))

instance (s : Text) (p q : Nat × Nat) : Decidable (Overruns s p q) :=
  inferInstanceAs (Decidable (_ ∧ _))

/-- What is read behind the point of an argument. -/
def cellsOperand? (array cells : Text) : Option Text :=
  if cells.contains ':' then (CellRange.parse cells).toOption.map (slice array)
  else (Cell.parse cells).toOption.map fun c => element array c.row c.col

variable {t : Table} {argument operand : Text}

theorem operand?_of_isNumeral (h : Number.isNumeral argument = true) :
    operand? t argument = some argument := by
  unfold operand?
  rw [if_pos h]

theorem operand?_of_not_isNumeral (h : Number.isNumeral argument = false) :
    operand? t argument
      = cellsOperand? (arrayOf t (cutTable (unmarked argument)).1)
        (cutTable (unmarked argument)).2 := by
  unfold operand?
  rw [if_neg (by rw [h]; decide)]
  rfl

theorem isReferenceChar_facts {c : Char} (h : isReferenceChar c = true) :
    Text.isBlank c = false ∧ c ≠ '[' := by
  unfold isReferenceChar at h
  simp only [Bool.or_eq_true, beq_iff_eq] at h
  rcases h with ((((h | rfl) | rfl) | rfl) | rfl) | rfl
  · refine ⟨Text.isBlank_of_isWordChar ?_, ?_⟩
    · unfold Text.isWordChar
      rw [h]
      rfl
    · rintro rfl
      cases h
  all_goals decide

/-- What stands behind the point is read as the cells that it names, if they
fit. -/
theorem cellsOperand?_eq_some_iff {array cells : Text}
    (hchars : ∀ c ∈ cells, isReferenceChar c = true ∧ c ≠ '$') :
    cellsOperand? array cells = some operand
      ↔ ∃ p q, NamesCells cells p q ∧ Fits p.1 p.2 ∧ Fits q.1 q.2
        ∧ operand = if ':' ∈ cells then slice array (.ofCorners .body p q)
          else element array p.1 p.2 := by
  have hsolid : Solid cells :=
    fun c hc => (isReferenceChar_facts (hchars c hc).1).1
  have hbracket : '[' ∉ cells :=
    fun hc => (isReferenceChar_facts (hchars _ hc).1).2 rfl
  have hmark : '$' ∉ cells := fun hc => (hchars _ hc).2 rfl
  unfold cellsOperand?
  by_cases hcolon : ':' ∈ cells
  -- a range is read up to its first colon and behind it
  · rw [if_pos (List.contains_iff_mem.2 hcolon)]
    simp only [if_pos hcolon]
    obtain ⟨a, b, rfl, ha⟩ := List.eq_append_cons_of_mem hcolon
    rw [Text.solid_append, Text.solid_cons] at hsolid
    simp only [List.mem_append, List.mem_cons, not_or] at hmark
    rw [CellRange.toOption_parse
      (Text.solid_append.2 ⟨hsolid.1, Text.solid_cons.2 hsolid.2⟩)
      hbracket ha, Option.map_eq_some_iff]
    constructor
    · rintro ⟨r, hread, rfl⟩
      obtain ⟨p, hp, hread⟩ := Option.bind_eq_some_iff.1 hread
      obtain ⟨q, hq, rfl⟩ := Option.map_eq_some_iff.1 hread
      obtain ⟨hp, hpfits⟩ := (readLabel?_eq_some_iff hsolid.1 hmark.1).1 hp
      obtain ⟨hq, hqfits⟩ := (readLabel?_eq_some_iff hsolid.2.2 hmark.2.2).1 hq
      exact ⟨p, q, .range hp hq, hpfits, hqfits, rfl⟩
    · rintro ⟨p, q, hnames, hpfits, hqfits, rfl⟩
      rcases hnames.cases_colon with ⟨hnone, -, -⟩ | ⟨a', b', heq, ha', hp, hq⟩
      · exact absurd hcolon hnone
      -- there is one way to cut at the first colon
      · have hcut := Text.cutAtFirst?_append ha b
        rw [heq, Text.cutAtFirst?_append ha' b'] at hcut
        cases hcut
        refine ⟨_, Option.bind_eq_some_iff.2
          ⟨p, ?_, Option.map_eq_some_iff.2 ⟨q, ?_, rfl⟩⟩, rfl⟩
        · exact (readLabel?_eq_some_iff hsolid.1 hmark.1).2 ⟨hp, hpfits⟩
        · exact (readLabel?_eq_some_iff hsolid.2.2 hmark.2.2).2 ⟨hq, hqfits⟩
  · rw [if_neg (fun h => hcolon (List.contains_iff_mem.1 h)),
      Cell.toOption_parse hsolid hbracket]
    simp only [if_neg hcolon, Option.map_map, Option.map_eq_some_iff]
    constructor
    · rintro ⟨p, hread, rfl⟩
      obtain ⟨hp, hfits⟩ := (readLabel?_eq_some_iff hsolid hmark).1 hread
      exact ⟨p, p, .cell hp, hfits, hfits, rfl⟩
    · rintro ⟨p, q, hnames, hfits, -, rfl⟩
      rcases hnames.cases_colon with ⟨-, hp, -⟩ | ⟨a, b, rfl, -, -, -⟩
      · exact ⟨p, (readLabel?_eq_some_iff hsolid hmark).2 ⟨hp, hfits⟩, rfl⟩
      · exact absurd (List.mem_append_right a List.mem_cons_self) hcolon

/-- The characters of an argument that is no number, without its marks. -/
theorem chars_unmarked (haccepted : isAggregateArgument argument = true)
    (hnumeral : Number.isNumeral argument = false) :
    ∀ c ∈ unmarked argument, isReferenceChar c = true ∧ c ≠ '$' := by
  unfold isAggregateArgument at haccepted
  rw [hnumeral, Bool.false_or, Bool.and_eq_true] at haccepted
  intro c hc
  obtain ⟨hmem, hmark⟩ := List.mem_filter.1 hc
  exact ⟨List.all_eq_true.1 haccepted.2 c hmem, by simpa using hmark⟩

theorem cutTable_subset {s : Text} : (cutTable s).2 ⊆ s := by
  unfold cutTable
  split
  next front back hfound =>
      rw [(Text.cutAtLast?_eq_some hfound).1]
      exact List.Subset.trans (List.subset_cons_self _ _)
        (List.subset_append_right _ _)
  next => exact List.Subset.refl s

/-- An argument becomes an operand if it refers to cells that fit, and then
these are the cells that are exported, of the table's array. -/
theorem operand?_eq_some (haccepted : isAggregateArgument argument = true)
    (hnumeral : Number.isNumeral argument = false)
    (h : operand? t argument = some operand) :
    ∃ table p q, Refers (unmarked argument) table p q
      ∧ Fits p.1 p.2 ∧ Fits q.1 q.2
      ∧ TakesIn (unmarked argument) operand (arrayOf t table) p q := by
  have hchars := chars_unmarked haccepted hnumeral
  rw [operand?_of_not_isNumeral hnumeral,
    cellsOperand?_eq_some_iff fun c hc => hchars c (cutTable_subset hc)] at h
  obtain ⟨p, q, hnames, hp, hq, rfl⟩ := h
  refine ⟨_, p, q, Refers.iff_cut.2 ⟨_, rfl, hnames⟩, hp, hq, ?_⟩
  split
  case isTrue hcolon =>
      refine ⟨fun hend => ?_, fun hend => ?_⟩
      · exact covers_slice _ .body hp hq fun hlast =>
          hend ⟨isRange_iff.2 hcolon, hlast⟩
      · rw [slice_ofCorners _ .body hp hq, Number.wordAfter_last hend.2]
        rfl
  case isFalse hcolon =>
      refine ⟨fun _ => ?_, fun hend => absurd (isRange_iff.1 hend.1) hcolon⟩
      rcases hnames.cases_colon with ⟨-, -, rfl⟩ | ⟨a, b, heq, -, -, -⟩
      · exact covers_element _ q
      · rw [heq] at hcolon
        exact absurd (List.mem_append_right a List.mem_cons_self) hcolon

theorem exists_operand_iff (haccepted : isAggregateArgument argument = true) :
    (∃ operand, operand? t argument = some operand) ↔ Readable argument := by
  unfold Readable
  cases hnumeral : Number.isNumeral argument with
  | true => exact iff_of_true ⟨_, operand?_of_isNumeral hnumeral⟩ (Or.inl rfl)
  | false =>
      rw [or_iff_right (by decide)]
      constructor
      · rintro ⟨operand, h⟩
        obtain ⟨table, p, q, hrefers, hp, hq, -⟩ :=
          operand?_eq_some haccepted hnumeral h
        exact ⟨table, p, q, hrefers, hp, hq⟩
      · rintro ⟨table, p, q, hrefers, hp, hq⟩
        have hchars := chars_unmarked haccepted hnumeral
        obtain ⟨cells, hcut, hnames⟩ := Refers.iff_cut.1 hrefers
        rw [operand?_of_not_isNumeral hnumeral]
        refine ⟨_,
          (cellsOperand?_eq_some_iff fun c hc =>
            hchars c (cutTable_subset hc)).2
          ⟨p, q, ?_, hp, hq, rfl⟩⟩
        rw [hcut]
        exact hnames

/-- A point is no mark, and neither is a colon. -/
theorem sublist_unmarked :
    [':', '.'].Sublist (unmarked argument) ↔ [':', '.'].Sublist argument := by
  constructor
  · exact fun h => h.trans List.filter_sublist
  · exact fun h => h.filter (· != '$')

-- ======================================================= calls of aggregates

theorem accepted_of_aggregateCall? {expr : Text} {a : Aggregate}
    {arguments : List Text}
    (h : Formula.aggregateCall? expr = some (a, arguments)) :
    ∀ argument ∈ arguments, isAggregateArgument argument = true := by
  unfold Formula.aggregateCall? at h
  obtain ⟨⟨name, rest⟩, -, h⟩ := Option.bind_eq_some_iff.1 h
  dsimp only at h
  split at h
  case isTrue => cases h
  case isFalse =>
      obtain ⟨aggregate, -, h⟩ := Option.bind_eq_some_iff.1 h
      obtain ⟨inner, -, h⟩ := Option.bind_eq_some_iff.1 h
      split at h
      case isTrue => cases h
      case isFalse =>
          split at h
          case isTrue hall =>
              cases h
              exact List.all_eq_true.1 hall
          case isFalse => cases h

theorem accepted_of_form {formula : Text} {a : Aggregate}
    {arguments : List Text}
    (h : Formula.form formula = .aggregate a arguments) :
    ∀ argument ∈ arguments, isAggregateArgument argument = true := by
  unfold Formula.form at h
  dsimp only at h
  split at h
  next a' arguments' hcall =>
      cases h
      exact accepted_of_aggregateCall? hcall
  next => split at h <;> cases h

/-- A call of an aggregate over operands. -/
def reduced (a : Aggregate) (operands : List Text) : Text :=
  a.reducer.1 ++ Literal.list operands ++ a.reducer.2

theorem expression?_aggregate {a : Aggregate} {arguments : List Text}
    {rhs : Text} :
    expression? t (.aggregate a arguments) = some rhs
      ↔ ∃ operands, List.Forall₂
          (fun argument operand => operand? t argument = some operand)
          arguments operands ∧ rhs = reduced a operands := by
  unfold expression?
  simp only [Option.bind_eq_bind, Option.bind_eq_some_iff, mapM_eq_some_iff]
  exact exists_congr fun operands => and_congr_right fun _ =>
    ⟨fun h => (Option.some.inj h).symm, fun h => congrArg some h.symm⟩

/-- A call of an aggregate has an expression if all its arguments can be
read. -/
theorem exists_expression_iff {a : Aggregate} {arguments : List Text}
    (haccepted : ∀ argument ∈ arguments, isAggregateArgument argument = true) :
    (∃ rhs, expression? t (.aggregate a arguments) = some rhs)
      ↔ ∀ argument ∈ arguments, Readable argument := by
  simp only [expression?_aggregate]
  constructor
  · rintro ⟨rhs, operands, hall, -⟩ argument hmem
    exact (exists_operand_iff (haccepted argument hmem)).1
      (exists_forall₂_iff.1 ⟨operands, hall⟩ argument hmem)
  · intro hread
    obtain ⟨operands, hall⟩ := exists_forall₂_iff.2 fun argument hmem =>
      (exists_operand_iff (t := t) (haccepted argument hmem)).2
        (hread argument hmem)
    exact ⟨_, operands, hall, rfl⟩

/-- The operand of a number is the number. Any other operand takes in exactly
the cells that the argument names, of the array of its table, unless the
argument is a range down to the last row that there can be; then the slice
ends in front of the first row. The name of that table has a colon in it if
and only if the argument has one in front of a point. A call of an aggregate is
exported with the operands of its arguments, unless one of them cannot be
read. -/
theorem operands_cover (t : Table) :
    (∀ argument operand, isAggregateArgument argument = true →
      operand? t argument = some operand →
        (Number.isNumeral argument = true ∧ operand = argument)
          ∨ Number.isNumeral argument = false ∧ ∃ table p q,
            (∀ table' p' q', Refers (unmarked argument) table' p' q'
              ↔ table' = table ∧ p' = p ∧ q' = q)
            ∧ TakesIn (unmarked argument) operand (arrayOf t table) p q
            ∧ ((∃ name ∈ table, ':' ∈ name) ↔ [':', '.'].Sublist argument))
      ∧ ∀ formula a arguments, Formula.form formula = .aggregate a arguments →
        (∀ argument ∈ arguments, isAggregateArgument argument = true)
        ∧ ∀ target,
          ((∀ argument ∈ arguments, Readable argument) →
            ∃ operands, List.Forall₂
                (fun argument operand => operand? t argument = some operand)
                arguments operands
              ∧ formulaLine t target formula
                = elementLine target.region target.row target.col
                  (reduced a operands))
          ∧ (¬(∀ argument ∈ arguments, Readable argument) →
            formulaLine t target formula = comment target formula) := by
  refine ⟨fun argument operand haccepted h => ?_,
    fun formula a arguments h => ?_⟩
  · cases hnumeral : Number.isNumeral argument with
    | true =>
        rw [operand?_of_isNumeral hnumeral] at h
        exact Or.inl ⟨rfl, (Option.some.inj h).symm⟩
    | false =>
        obtain ⟨table, p, q, hrefers, -, -, htakes⟩ :=
          operand?_eq_some haccepted hnumeral h
        refine Or.inr ⟨rfl, table, p, q,
          fun table' p' q' => ⟨fun h' => h'.unique hrefers, ?_⟩,
          htakes, hrefers.colon_mem_iff.trans sublist_unmarked⟩
        rintro ⟨rfl, rfl, rfl⟩
        exact hrefers
  · have haccepted := accepted_of_form h
    refine ⟨haccepted, fun target => ?_⟩
    have hreadable := exists_expression_iff (t := t) (a := a) haccepted
    rw [← h] at hreadable
    constructor
    · intro hread
      obtain ⟨rhs, hrhs⟩ := hreadable.2 hread
      have hline := formulaLine_of_some target hrhs
      rw [h] at hrhs
      obtain ⟨operands, hall, rfl⟩ := expression?_aggregate.1 hrhs
      exact ⟨operands, hall, hline⟩
    · exact fun hunread => formulaLine_of_none target fun rhs hrhs =>
        hunread (hreadable.1 ⟨rhs, hrhs⟩)

/-- A range with its table in front of both corners. -/
def twiceQualified : Text := "table_2.A0:table_2.A9".toList

/-- A range down to the last row that there can be. -/
def lastRow : Text := "A0:A18446744073709551615".toList

/-- The sum of a range from right to left with a number. -/
def backwardSum : Text := "=sum($B9:A$0, 2)".toList

theorem operands_cover_twiceQualified :
    isAggregateArgument twiceQualified = true
      ∧ operand? bare twiceQualified
        = some "tables['table_2.A0:table_2']['body'][9, 0]".toList
      ∧ Formula.form backwardSum
        = .aggregate .sum ["$B9:A$0".toList, "2".toList]
      ∧ (∀ argument ∈ ["$B9:A$0".toList, "2".toList], Readable argument)
      ∧ (∃ table p q, Refers twiceQualified table p q
        ∧ Covers "tables['table_2.A0:table_2']['body'][9, 0]".toList
          (arrayOf bare table) p q
        ∧ ∃ name ∈ table, ':' ∈ name)
      ∧ (isAggregateArgument lastRow = true
        ∧ operand? bare lastRow = some "body[0:0, 0:1]".toList
        ∧ ∃ table p q, Refers lastRow table p q ∧ Overruns lastRow p q
          ∧ "body[0:0, 0:1]".toList = halfOpen (arrayOf bare table)
              (min p.1 q.1) 0 (min p.2 q.2) (max p.2 q.2 + 1))
      ∧ ∃ operands, List.Forall₂
          (fun argument operand => operand? bare argument = some operand)
            ["$B9:A$0".toList, "2".toList] operands
        ∧ formulaLine bare ⟨.body, 0, 2⟩ backwardSum
          = elementLine .body 0 2 (reduced .sum operands) := by
  have haccepted : isAggregateArgument twiceQualified = true := by
    decide +kernel
  have hoperand : operand? bare twiceQualified
      = some "tables['table_2.A0:table_2']['body'][9, 0]".toList := by
        decide +kernel
  have hform : Formula.form backwardSum
      = .aggregate .sum ["$B9:A$0".toList, "2".toList] := by
    have hbody : Formula.body backwardSum = "sum($B9:A$0, 2)".toList := by
      decide
    have hcall : Formula.aggregateCall? "sum($B9:A$0, 2)".toList
        = some (.sum, ["$B9:A$0".toList, "2".toList]) := by decide +kernel
    unfold Formula.form
    simp only [hbody, hcall]
  have hread : ∀ argument ∈ ["$B9:A$0".toList, "2".toList],
      Readable argument := by
    have haccepted : ∀ argument ∈ ["$B9:A$0".toList, "2".toList],
        isAggregateArgument argument = true
          ∧ (operand? bare argument).isSome = true := by
      decide +kernel
    intro argument hmem
    exact (exists_operand_iff (haccepted argument hmem).1).1
      (Option.isSome_iff_exists.1 (haccepted argument hmem).2)
  have hlast : isAggregateArgument lastRow = true
      ∧ operand? bare lastRow = some "body[0:0, 0:1]".toList := by
    decide +kernel
  refine ⟨haccepted, hoperand, hform, hread, ?_, ⟨hlast.1, hlast.2, ?_⟩, ?_⟩
  · rcases (operands_cover bare).1 twiceQualified _ haccepted hoperand
      with ⟨hnumeral, -⟩ | ⟨-, h⟩
    · exact absurd hnumeral (by decide)
    · obtain ⟨table, p, q, hrefers, htakes, hcolon⟩ := h
      have hrange : ¬IsRange (unmarked twiceQualified) := by decide
      exact ⟨table, p, q, (hrefers table p q).2 ⟨rfl, rfl, rfl⟩,
        htakes.1 fun hend => hrange hend.1, hcolon.2 (by decide)⟩
  · rcases (operands_cover bare).1 lastRow _ hlast.1 hlast.2
      with ⟨hnumeral, -⟩ | ⟨-, h⟩
    · exact absurd hnumeral (by decide)
    · obtain ⟨table, p, q, hrefers, htakes, -⟩ := h
      have hfirst : Spells "A0".toList 0 0 :=
        ((readLabel?_eq_some_iff (by decide) (by decide)).1
          (by decide +kernel)).1
      have hsecond :
          Spells "A18446744073709551615".toList 18446744073709551615 0 :=
        ((readLabel?_eq_some_iff (by decide) (by decide)).1
          (by decide +kernel)).1
      have hnames : Refers lastRow none (0, 0) (18446744073709551615, 0) :=
        NamesCells.range (p := (0, 0)) (q := (18446744073709551615, 0))
          hfirst hsecond
      obtain ⟨rfl, rfl, rfl⟩ := (hrefers _ _ _).1 hnames
      have hend : Overruns (unmarked lastRow) (0, 0)
          (18446744073709551615, 0) := by decide +kernel
      exact ⟨none, _, _, hnames, hend, htakes.2 hend⟩
  · exact (((operands_cover bare).2 backwardSum .sum _ hform).2
      ⟨.body, 0, 2⟩).1 hread

end GridScript.Export
