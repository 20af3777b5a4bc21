/-
The section of a table, line by line. A line that assigns to an element and
a line that creates an array both begin with the name of a region, which no
other line does, and what follows the name tells the two apart. So the
sizes of a section's arrays can be read off the table
(`exists_creates_iff`), and the elements that it assigns to as well
(`assigns_cases`).

Values beyond the size of their region are left out, but formulas are not.
So an assignment beyond an array is always that of a formula
(`assignments_within`).
-/
import GridScript.Project.Export
import GridScript.Proofs.Value.Literal

namespace GridScript.Export

open Number (decimal)
open Text (EndsWord)

-- ================================================================ numbers

/-- A number is told from the text that it begins, if no digit follows. -/
theorem decimal_append_inj {m n : Nat} {c d : Char} {s t : Text}
    (hc : c.isDigit = false) (hd : d.isDigit = false)
    (h : decimal m ++ c :: s = decimal n ++ d :: t) :
    m = n ∧ c :: s = d :: t := by
  have hdigits : ∀ k, ∀ c ∈ decimal k, c.isDigit = true :=
    fun k c => Number.isDigit_of_mem_decimal
  have hends : ∀ {c : Char} {s : Text}, c.isDigit = false →
      ∀ d ∈ (c :: s).head?, d.isDigit = false := by
    rintro c s hc d ⟨⟩
    exact hc
  have hm := Text.takeWhile_run (hdigits m) (hends (s := s) hc)
  have hn := Text.takeWhile_run (hdigits n) (hends (s := t) hd)
  rw [h, hn] at hm
  have hmn := Number.decimal_injective hm
  subst hmn
  exact ⟨rfl, List.append_cancel_left h⟩

theorem pair_append_inj {a b a' b' : Nat} {c d : Char} {s t : Text}
    (hc : c.isDigit = false) (hd : d.isDigit = false)
    (h : pair a b ++ c :: s = pair a' b' ++ d :: t) :
    a = a' ∧ b = b' := by
  unfold pair at h
  simp only [List.append_assoc] at h
  obtain ⟨ha, hrest⟩ := decimal_append_inj (by decide) (by decide) h
  have hrest : ", ".toList ++ (decimal b ++ c :: s)
      = ", ".toList ++ (decimal b' ++ d :: t) := hrest
  exact ⟨ha, (decimal_append_inj hc hd (List.append_cancel_left hrest)).1⟩

-- ========================================================= kinds of lines

/-- The line assigns to an element of the array of a region. -/
def Assigns (line : Text) (region : Region) (row col : Nat) : Prop :=
  ∃ rhs, line = elementLine region row col rhs

/-- What follows the name in a line that creates an array. -/
def creation (rows cols : Nat) (numeric : Bool) : Text :=
  let size := '(' :: pair rows cols ++ [')']
  if numeric then "np.full(".toList ++ size ++ ", np.nan, dtype=float)".toList
  else "np.empty(".toList ++ size ++ ", dtype=object)".toList

/-- The line creates the array of a region, with so many rows and columns. -/
def Creates (line : Text) (region : Region) (rows cols : Nat) : Prop :=
  ∃ numeric, line = region.name ++ " = ".toList ++ creation rows cols numeric

/-- The line begins with the name of no region. -/
def Other (line : Text) : Prop :=
  ∀ region : Region, Text.word line ≠ region.name

section Kinds

variable {region region' : Region}
  {row col row' col' rows cols rows' cols' : Nat} {line : Text}

theorem isWord_name (region : Region) : Text.IsWord region.name := by
  cases region <;> decide

theorem name_injective (h : region.name = region'.name) :
    region = region' := by
  revert h
  cases region <;> cases region' <;> decide

theorem elementLine_eq (region : Region) (row col : Nat) (rhs : Text) :
    elementLine region row col rhs
      = region.name
        ++ '[' :: (pair row col ++ ']' :: (" = ".toList ++ rhs)) := by
  simp [elementLine, element]

theorem creation_inj {numeric numeric' : Bool}
    (h : creation rows cols numeric = creation rows' cols' numeric') :
    rows = rows' ∧ cols = cols' := by
  have hsize : ∀ {f s : Text}, f ++ ('(' :: pair rows cols ++ [')']) ++ s
      = f ++ ('(' :: pair rows' cols' ++ [')']) ++ s → rows = rows'
        ∧ cols = cols' := by
    intro f s h
    have hpair := List.append_cancel_left (List.append_cancel_right h)
    exact pair_append_inj (by decide) (by decide) (List.cons.inj hpair).2
  have hkinds : ∀ {a b s s' : Text},
      "np.full(".toList ++ a ++ s ≠ "np.empty(".toList ++ b ++ s' := by
    intro a b s s' h
    have hfourth : some 'f' = some 'e' := congrArg (fun t => t[3]?) h
    cases hfourth
  cases numeric <;> cases numeric'
  · exact hsize h
  · exact absurd h.symm hkinds
  · exact absurd h hkinds
  · exact hsize h

theorem Assigns.word (h : Assigns line region row col) :
    Text.word line = region.name ∧ (Text.afterWord line).head? = some '[' := by
  obtain ⟨rhs, rfl⟩ := h
  have hends : ∀ t, EndsWord ('[' :: t) :=
    fun t => Text.endsWord_cons (by decide)
  have hname := (isWord_name region).isWordChar
  rw [elementLine_eq, Text.word_append hname (hends _),
    Text.afterWord_append hname (hends _)]
  exact ⟨rfl, rfl⟩

theorem Creates.word (h : Creates line region rows cols) :
    Text.word line = region.name ∧ (Text.afterWord line).head? = some ' ' := by
  obtain ⟨numeric, rfl⟩ := h
  have hends : EndsWord (" = ".toList ++ creation rows cols numeric) :=
    Text.endsWord_cons (by decide)
  have hname := (isWord_name region).isWordChar
  rw [List.append_assoc, Text.word_append hname hends,
    Text.afterWord_append hname hends]
  exact ⟨rfl, rfl⟩

/-- A line that assigns to an element creates no array. -/
theorem Assigns.not_creates (h : Assigns line region row col) :
    ¬Creates line region' rows cols := by
  intro hcreates
  have hhead := h.word.2.symm.trans hcreates.word.2
  cases hhead

/-- A line assigns to one element. -/
theorem Assigns.unique (h : Assigns line region row col)
    (h' : Assigns line region' row' col') :
    region' = region ∧ row' = row ∧ col' = col := by
  obtain rfl := name_injective (h'.word.1.symm.trans h.word.1)
  obtain ⟨rhs, h⟩ := h
  obtain ⟨rhs', h'⟩ := h'
  rw [h, elementLine_eq, elementLine_eq] at h'
  obtain ⟨hrow, hcol⟩ := pair_append_inj (by decide) (by decide)
    (List.cons.inj (List.append_cancel_left h')).2
  exact ⟨rfl, hrow.symm, hcol.symm⟩

/-- A line creates an array of one size. -/
theorem Creates.unique (h : Creates line region rows cols)
    (h' : Creates line region' rows' cols') :
    region' = region ∧ rows' = rows ∧ cols' = cols := by
  obtain rfl := name_injective (h'.word.1.symm.trans h.word.1)
  obtain ⟨numeric, h⟩ := h
  obtain ⟨numeric', h'⟩ := h'
  rw [h] at h'
  obtain ⟨hrows, hcols⟩ := creation_inj (List.append_cancel_left h')
  exact ⟨rfl, hrows.symm, hcols.symm⟩

end Kinds

-- ============================================================== sections

section Sections

variable {t : Table} {o : Options} {region : Region} {row col : Nat}
  {line : Text}

theorem Other.not_assigns (h : Other line) : ¬Assigns line region row col :=
  fun hassigns => h region hassigns.word.1

theorem Other.not_creates {rows cols : Nat} (h : Other line) :
    ¬Creates line region rows cols :=
  fun hcreates => h region hcreates.word.1

/-- A comment begins with no name at all. -/
theorem other_comment (s : Text) : Other ('#' :: s) := by
  intro region h
  exact (isWord_name region).ne_nil h.symm

theorem other_word {w : Text} {c : Char} (hw : Text.IsWord w)
    (hc : Text.isWordChar c = false) (hname : ∀ region ∈ Region.all,
      w ≠ region.name) (s : Text) : Other (w ++ c :: s) := by
  intro region
  rw [Text.word_append hw.isWordChar (Text.endsWord_cons hc)]
  exact hname region (by cases region <;> decide)

theorem other_formulaTexts : Other ("formulas = ".toList ++ formulaTexts t) :=
  other_word (w := "formulas".toList) (c := ' ') (by decide) (by decide)
    (by decide) _

theorem other_entry :
    Other
      ("tables[".toList ++ Script.quote t.id ++ "] = ".toList ++ entry t o) :=
  other_word (w := "tables".toList) (c := '[') (by decide) (by decide)
    (by decide) _

theorem mem_storedCells {c : Cell} {v : Value} :
    (c, v) ∈ storedCells t region
      ↔ (c, v) ∈ t.cells.entries ∧ c.region = region
      ∧ c.row < (t.regionSize region).1 ∧ c.col < (t.regionSize region).2 := by
  unfold storedCells
  rw [List.mem_filter]
  simp only [Bool.and_eq_true, beq_iff_eq, decide_eq_true_eq, and_assoc]

theorem creates_arrayLine (t : Table) (region : Region) (numeric : Bool) :
    Creates (arrayLine t region numeric) region (t.regionSize region).1
      (t.regionSize region).2 :=
  ⟨numeric, rfl⟩

theorem exists_creates (t : Table) (region : Region) :
    ∃ line ∈ regionLines t region,
    Creates line region (t.regionSize region).1 (t.regionSize region).2 :=
  ⟨_, List.mem_cons_self, creates_arrayLine t region _⟩

/-- The formula is written as an assignment. -/
def Written (t : Table) (o : Options) (c : Cell) (formula : Text) : Prop :=
  o.formulas = true ∧ c.region ∈ storedRegions t o
    ∧ (c, formula) ∈ t.cellFormulas
    ∧ (expression? t (Formula.form formula)).isSome = true

/-- The line of a formula assigns to its cell, or is a comment. -/
theorem formulaLine_cases (t : Table) (c : Cell) (formula : Text) :
    (Assigns (formulaLine t c formula) c.region c.row c.col
        ∧ (expression? t (Formula.form formula)).isSome = true)
      ∨ Other (formulaLine t c formula) := by
  unfold formulaLine
  cases expression? t (Formula.form formula) with
  | some rhs => exact Or.inl ⟨⟨rhs, rfl⟩, rfl⟩
  | none => exact Or.inr (other_comment _)

/-- A line creates the array of a region, assigns the value of a cell within
the region, assigns a formula, or does neither. -/
theorem tableLines_cases (h : line ∈ tableLines t o) :
    Other line
      ∨ (∃ region ∈ storedRegions t o,
          Creates line region (t.regionSize region).1 (t.regionSize region).2)
      ∨ (∃ c : Cell, c.region ∈ storedRegions t o
          ∧ Assigns line c.region c.row c.col
          ∧ c.row < (t.regionSize c.region).1
          ∧ c.col < (t.regionSize c.region).2)
      ∨ ∃ c formula, Written t o c formula
        ∧ Assigns line c.region c.row c.col := by
  unfold tableLines at h
  simp only [List.mem_append, List.mem_singleton, List.mem_flatMap] at h
  rcases h with (((rfl | ⟨region, hregion, hline⟩) | rfl) | hline) | rfl
  · exact Or.inl (other_comment _)
  · rcases List.mem_cons.1 hline with rfl | hline
    · exact Or.inr (Or.inl ⟨region, hregion, creates_arrayLine t region _⟩)
    · obtain ⟨⟨c, v⟩, hcell, rfl⟩ := List.mem_map.1 hline
      obtain ⟨-, rfl, hwithin⟩ := mem_storedCells.1 hcell
      exact Or.inr (Or.inr (Or.inl ⟨c, hregion, ⟨_, rfl⟩, hwithin⟩))
  · exact Or.inl other_formulaTexts
  · unfold formulaLines at hline
    split at hline
    case isTrue hformulas =>
        -- a formula of one cell is assigned, the others are told in comments
        rcases List.mem_append.1 hline with hline | hline
        · obtain ⟨⟨c, formula⟩, hformula, rfl⟩ := List.mem_map.1 hline
          obtain ⟨hformula, hregion⟩ := List.mem_filter.1 hformula
          rcases formulaLine_cases t c formula with ⟨hassigns, hsome⟩ | hother
          · refine Or.inr
              (Or.inr
                (Or.inr
                  ⟨c, formula, ⟨hformulas, ?_, hformula, hsome⟩, hassigns⟩))
            exact List.contains_iff_mem.1 hregion
          · exact Or.inl hother
        · obtain ⟨key, -, rfl⟩ := List.mem_map.1 hline
          exact Or.inl (other_comment _)
    case isFalse => cases hline
  · exact Or.inl other_entry

/-- The arrays of a section have the sizes of their regions. -/
theorem exists_creates_iff {rows cols : Nat} :
    (∃ line ∈ tableLines t o, Creates line region rows cols)
      ↔ region ∈ storedRegions t o ∧ rows = (t.regionSize region).1
        ∧ cols = (t.regionSize region).2 := by
  constructor
  · rintro ⟨line, hline, hcreates⟩
    rcases tableLines_cases hline
      with hother | ⟨r, hr, hfound⟩ | ⟨c, -, hassigns, -⟩
      | ⟨c, formula, -, hassigns⟩
    · exact absurd hcreates hother.not_creates
    · obtain ⟨rfl, hsize⟩ := hfound.unique hcreates
      exact ⟨hr, hsize⟩
    · exact absurd hcreates hassigns.not_creates
    · exact absurd hcreates hassigns.not_creates
  · rintro ⟨hregion, rfl, rfl⟩
    obtain ⟨line, hline, hcreates⟩ := exists_creates t region
    refine ⟨line, ?_, hcreates⟩
    unfold tableLines
    simp only [List.mem_append, List.mem_flatMap]
    exact Or.inl (Or.inl (Or.inl (Or.inr ⟨region, hregion, hline⟩)))

/-- The elements that a section assigns to are those of values within their
region and of formulas. -/
theorem assigns_cases (h : line ∈ tableLines t o)
    (hassigns : Assigns line region row col) :
    region ∈ storedRegions t o
      ∧ ((row < (t.regionSize region).1 ∧ col < (t.regionSize region).2)
        ∨ ∃ formula, Written t o ⟨region, row, col⟩ formula) := by
  rcases tableLines_cases h
    with hother | ⟨r, -, hcreates⟩ | ⟨c, hregion, hvalue, hwithin⟩
    | ⟨c, formula, hwritten, hformula⟩
  · exact absurd hassigns hother.not_assigns
  · exact absurd hcreates hassigns.not_creates
  · obtain ⟨rfl, rfl, rfl⟩ := hvalue.unique hassigns
    exact ⟨hregion, Or.inl hwithin⟩
  · obtain ⟨rfl, rfl, rfl⟩ := hformula.unique hassigns
    exact ⟨hwritten.2.1, Or.inr ⟨formula, hwritten⟩⟩

theorem exists_assigns_of_written {c : Cell} {formula : Text}
    (h : Written t o c formula) :
    ∃ line ∈ tableLines t o, Assigns line c.region c.row c.col := by
  obtain ⟨hformulas, hregion, hformula, hsome⟩ := h
  obtain ⟨rhs, hrhs⟩ := Option.isSome_iff_exists.1 hsome
  refine ⟨formulaLine t c formula, ?_, rhs, ?_⟩
  · unfold tableLines formulaLines
    rw [if_pos hformulas]
    simp only [List.mem_append, List.mem_map, List.mem_filter]
    exact Or.inl
      (Or.inr
        (Or.inl
          ⟨(c, formula), ⟨hformula, List.contains_iff_mem.2 hregion⟩, rfl⟩))
  · unfold formulaLine
    rw [hrhs]

/-- The array that a section assigns an element of is created in the section
with one size. The element lies beyond it if and only if it is that of a
cell beyond the region with a formula that is written as an expression. -/
theorem assignments_within (t : Table) (o : Options) (region : Region)
    (row col : Nat) :
    ((∃ line ∈ tableLines t o, Assigns line region row col) →
        ∀ rows cols, (∃ line ∈ tableLines t o, Creates line region rows cols)
          ↔ rows = (t.regionSize region).1 ∧ cols = (t.regionSize region).2)
      ∧ ((∃ line ∈ tableLines t o, Assigns line region row col
          ∧ ∃ line' ∈ tableLines t o, ∃ rows cols,
            Creates line' region rows cols
            ∧ ¬(row < rows ∧ col < cols))
        ↔ (∃ formula, Written t o ⟨region, row, col⟩ formula)
          ∧ ¬(row < (t.regionSize region).1
            ∧ col < (t.regionSize region).2)) := by
  constructor
  · rintro ⟨line, hline, hassigns⟩ rows cols
    rw [exists_creates_iff, and_iff_right (assigns_cases hline hassigns).1]
  · constructor
    · rintro ⟨line, hline, hassigns, line', hline', rows, cols, hcreates,
        hbeyond⟩
      obtain ⟨-, rfl, rfl⟩ := exists_creates_iff.1 ⟨line', hline', hcreates⟩
      exact ⟨(assigns_cases hline hassigns).2.resolve_left hbeyond, hbeyond⟩
    · rintro ⟨⟨formula, hwritten⟩, hbeyond⟩
      obtain ⟨line, hline, hassigns⟩ := exists_assigns_of_written hwritten
      obtain ⟨line', hline', hcreates⟩ :=
        exists_creates_iff.2 ⟨hwritten.2.1, rfl, rfl⟩
      exact ⟨line, hline, hassigns, line', hline', _, _, hcreates, hbeyond⟩

/-- A table that has become too small for its values and its formulas. -/
def shrunk : Table :=
  { Table.blank "t".toList "s".toList "T".toList default 1 2 with
    cells :=
      .ofList [(⟨.body, 0, 0⟩, .text "one".toList),
        (⟨.body, 1, 1⟩, .text "two".toList)]
    formulas := .ofList [("body[C1]".toList, "=A0*2".toList)] }

/-- An export with the formulas of cells. -/
def withFormulas : Options := ⟨false, true⟩

theorem assignments_within_shrunk :
    (∃ line ∈ tableLines shrunk withFormulas, Assigns line .body 0 0)
      ∧ (∀ rows cols,
        (∃ line ∈ tableLines shrunk withFormulas, Creates line .body rows cols)
        ↔ rows = 1 ∧ cols = 2)
      ∧ ∃ line ∈ tableLines shrunk withFormulas, Assigns line .body 1 2
        ∧ ∃ line' ∈ tableLines shrunk withFormulas, ∃ rows cols,
          Creates line' .body rows cols
          ∧ ¬(1 < rows ∧ 2 < cols) := by
  have hvalue : ∃ line ∈ tableLines shrunk withFormulas,
      Assigns line .body 0 0 := by
    refine ⟨elementLine .body 0 0 "'one'".toList, ?_, _, rfl⟩
    decide +kernel
  have hwritten : Written shrunk withFormulas
      ⟨.body, 1, 2⟩ "=A0*2".toList := by
    refine ⟨rfl, by decide, ?_, by decide +kernel⟩
    decide +kernel
  refine ⟨hvalue,
    (assignments_within shrunk withFormulas .body 0 0).1 hvalue, ?_⟩
  exact (assignments_within shrunk withFormulas .body 1 2).2.2
    ⟨⟨_, hwritten⟩, by decide⟩

end Sections

end GridScript.Export
