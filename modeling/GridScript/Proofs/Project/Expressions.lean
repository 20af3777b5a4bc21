/-
Inline formulas as exported expressions. The export does not read a formula
as it was set but the text that it was put together to, in which the cells
are in lower case. The tokens of that text are the formula's own, so nothing
is refused that was accepted before, and every cell is the one that the
formula names (`inline_read_again`).

A formula has no expression only if a cell in it does not fit: the numeral
of its column or its row is too large for a word.
-/
import GridScript.Project.Export
import GridScript.Proofs.Formula.Form
import GridScript.Proofs.Several

namespace GridScript.Export

open Formula (InlineToken inlineTokens? renderInline)

-- =========================================================== inline formulas

/-- What a token of an inline formula is exported as: a cell that fits as
the element of its array at the row and the column that the name spells, and
all else as it is. -/
inductive Exports (t : Table) : InlineToken → Text → Prop
  | reference (table : Option Text) {cell : Text} {row col : Nat}
    (h : Spells cell row col) (hfits : Fits row col) :
    Exports t (.reference table cell) (element (arrayOf t table) row col)
  | number (spelling : Text) : Exports t (.number spelling) spelling
  | operator (c : Char) : Exports t (.operator c) [c]
  | blanks (s : Text) : Exports t (.blanks s) s

/-- The row and the column of a cell fit. -/
def CellFits (cell : Text) : Prop :=
  ∃ row col, Spells cell row col ∧ Fits row col

/-- The name of a cell is read as the cell that it spells, in lower case
too. -/
theorem parse_lower {cell : Text} (hcell : isCellName cell = true) {c : Cell} :
    (Cell.parse (Text.lower cell)).toOption = some c
      ↔ c.region = .body ∧ Spells cell c.row c.col ∧ Fits c.row c.col := by
  have hlower := Formula.isCellName_lower hcell
  have hsolid := (Formula.isWord_of_isCellName hlower).solid
  have hmark : '$' ∉ Text.lower cell :=
    not_mem_of_isCellName hlower (by decide)
  have hbracket : '[' ∉ Text.lower cell :=
    not_mem_of_isCellName hlower (by decide)
  rw [Cell.toOption_parse hsolid hbracket, Option.map_eq_some_iff]
  constructor
  · rintro ⟨⟨row, col⟩, hread, rfl⟩
    obtain ⟨hspells, hfits⟩ := (readLabel?_eq_some_iff hsolid hmark).1 hread
    exact ⟨rfl, Spells.lower_iff.1 hspells, hfits⟩
  · obtain ⟨region, row, col⟩ := c
    rintro ⟨rfl, hspells, hfits⟩
    refine ⟨(row, col), ?_, rfl⟩
    rw [readLabel?_eq_some_iff hsolid hmark, Spells.lower_iff]
    exact ⟨hspells, hfits⟩

variable {t : Table}

theorem token?_lowered {token : InlineToken} (h : token.WellFormed)
    {part : Text} :
    token? t token.lowered = some part ↔ Exports t token part := by
  cases token with
  | reference table cell =>
      show Option.map _ (Cell.parse (Text.lower cell)).toOption = some part ↔ _
      rw [Option.map_eq_some_iff]
      constructor
      · rintro ⟨c, hread, rfl⟩
        obtain ⟨-, hspells, hfits⟩ := (parse_lower h.2).1 hread
        exact .reference table hspells hfits
      · rintro ⟨_, hspells, hfits⟩
        exact ⟨⟨.body, _, _⟩, (parse_lower h.2).2 ⟨rfl, hspells, hfits⟩, rfl⟩
  | number spelling =>
      show some spelling = some part ↔ _
      exact ⟨fun heq => Option.some.inj heq ▸ .number spelling,
        fun hpart => by cases hpart; rfl⟩
  | operator c =>
      show some [c] = some part ↔ _
      exact ⟨fun heq => Option.some.inj heq ▸ .operator c,
        fun hpart => by cases hpart; rfl⟩
  | blanks s =>
      show some s = some part ↔ _
      exact ⟨fun heq => Option.some.inj heq ▸ .blanks s,
        fun hpart => by cases hpart; rfl⟩

theorem wellFormed_of_legible {tokens : List InlineToken}
    (h : Formula.Legible tokens) :
    ∀ token ∈ tokens, token.WellFormed := by
  induction tokens with
  | nil => exact fun token hmem => by cases hmem
  | cons first tokens ih => exact List.forall_mem_cons.2 ⟨h.1, ih h.2.2⟩

/-- The expression of an inline formula is that of its tokens. -/
theorem expression?_inline {e : Text} {tokens : List InlineToken}
    (h : inlineTokens? e = some tokens) {rhs : Text} :
    expression? t (.inline (renderInline tokens)) = some rhs
      ↔ ∃ parts, List.Forall₂ (Exports t) tokens parts
        ∧ rhs = parts.flatten := by
  have hformed :=
    wellFormed_of_legible (Formula.inlineTokens?_eq_some_iff.1 h).2.1
  have hparts : ∀ parts,
      (tokens.map InlineToken.lowered).mapM (token? t) = some parts
      ↔ List.Forall₂ (Exports t) tokens parts := by
    intro parts
    rw [mapM_eq_some_iff, List.forall₂_map_left_iff]
    constructor
    · intro h
      exact ((List.forall₂_and_left _ _).2 ⟨hformed, h⟩).imp
        fun token part hpart =>
          (token?_lowered hpart.1).1 hpart.2
    · intro h
      exact ((List.forall₂_and_left _ _).2 ⟨hformed, h⟩).imp
        fun token part hpart =>
          (token?_lowered hpart.1).2 hpart.2
  unfold expression?
  simp only [Formula.inlineTokens?_renderInline h, Option.bind_eq_bind,
    Option.bind_some, Option.bind_eq_some_iff, hparts]
  exact exists_congr fun parts => and_congr_right fun _ =>
    ⟨fun h => (Option.some.inj h).symm, fun h => congrArg some h.symm⟩

/-- A formula has an expression if all its cells fit. -/
theorem exists_exports {tokens : List InlineToken} :
    (∃ parts, List.Forall₂ (Exports t) tokens parts)
      ↔ ∀ table cell, .reference table cell ∈ tokens → CellFits cell := by
  rw [exists_forall₂_iff]
  constructor
  · intro h table cell hmem
    obtain ⟨part, hpart⟩ := h _ hmem
    obtain ⟨_, hspells, hfits⟩ := hpart
    exact ⟨_, _, hspells, hfits⟩
  · intro h token hmem
    cases token with
    | reference table cell =>
        obtain ⟨row, col, hspells, hfits⟩ := h table cell hmem
        exact ⟨_, .reference table hspells hfits⟩
    | number spelling => exact ⟨_, .number spelling⟩
    | operator c => exact ⟨_, .operator c⟩
    | blanks s => exact ⟨_, .blanks s⟩

/-- The line that stands for a formula that is not exported. -/
def comment (target : Cell) (formula : Text) : Text :=
  "# not exported: ".toList ++ target.text ++ ' ' :: oneLine formula

theorem formulaLine_of_some {formula rhs : Text} (target : Cell)
    (h : expression? t (Formula.form formula) = some rhs) :
    formulaLine t target formula
      = elementLine target.region target.row target.col rhs := by
  unfold formulaLine
  rw [h]

theorem formulaLine_of_none {formula : Text} (target : Cell)
    (h : ∀ rhs, expression? t (Formula.form formula) ≠ some rhs) :
    formulaLine t target formula = comment target formula := by
  unfold formulaLine
  rw [Option.eq_none_iff_forall_ne_some.2 h]
  rfl

/-- The tokens of an inline formula make up the formula, and reading the
text that they are put together to gives the same tokens with their cells in
lower case. So a formula that is written inline is exported, as the elements
that its cells name with all else between them as it is, unless a cell does
not fit. -/
theorem inline_read_again :
    (∀ e tokens, inlineTokens? e = some tokens →
      tokens.flatMap InlineToken.source = e
        ∧ (∀ table cell, .reference table cell ∈ tokens →
          isCellName cell = true)
        ∧ tokens.any InlineToken.isOperand = true
        ∧ inlineTokens? (renderInline tokens)
          = some (tokens.map InlineToken.lowered))
      ∧ ∀ formula expr, Formula.form formula = .inline expr →
        ∃ tokens, inlineTokens? (Formula.body formula) = some tokens
          ∧ expr = renderInline tokens
          ∧ ∀ t target,
            ((∀ table cell, .reference table cell ∈ tokens → CellFits cell) →
              ∃ parts, List.Forall₂ (Exports t) tokens parts
                ∧ formulaLine t target formula
                  = elementLine target.region target.row target.col
                    parts.flatten)
            ∧ (¬(∀ table cell, .reference table cell ∈ tokens →
              CellFits cell) →
              formulaLine t target formula = comment target formula) := by
  refine ⟨fun e tokens h => ?_, fun formula expr h => ?_⟩
  · obtain ⟨hsource, hlegible, hoperand⟩ :=
      Formula.inlineTokens?_eq_some_iff.1 h
    refine ⟨hsource, fun table cell hmem => ?_, hoperand,
      Formula.inlineTokens?_renderInline h⟩
    exact (wellFormed_of_legible hlegible _ hmem).2
  · obtain ⟨tokens, htokens, rfl⟩ := Formula.exists_tokens_of_form h
    refine ⟨tokens, htokens, rfl,
      fun t target => ⟨fun hfit => ?_, fun hunfit => ?_⟩⟩
    · obtain ⟨parts, hparts⟩ := exists_exports.2 hfit
      refine ⟨parts, hparts, formulaLine_of_some target ?_⟩
      rw [h]
      exact (expression?_inline htokens).2 ⟨parts, hparts, rfl⟩
    · refine formulaLine_of_none target fun rhs hrhs => hunfit ?_
      rw [h] at hrhs
      obtain ⟨parts, hparts, -⟩ := (expression?_inline htokens).1 hrhs
      exact exists_exports.1 ⟨parts, hparts⟩

/-- A cell of another table with a number behind it. -/
def otherCell : Text := "=B02*Other.aa1 - .5".toList

/-- The tokens of that formula. -/
def otherTokens : List InlineToken :=
  [.reference none "B02".toList, .operator '*',
    .reference (some "Other".toList) "aa1".toList, .blanks [' '],
    .operator '-', .blanks [' '], .number ".5".toList]

/-- A table with nothing in it. -/
def bare : Table := .blank "t".toList "s".toList "T".toList default 10 3

theorem inline_read_again_otherCell :
    inlineTokens? (Formula.body otherCell) = some otherTokens
      ∧ otherTokens.flatMap InlineToken.source = Formula.body otherCell
      ∧ Formula.form otherCell = .inline "b02*Other.aa1 - .5".toList
      ∧ (∀ table cell, .reference table cell ∈ otherTokens → CellFits cell)
      ∧ ∃ parts, List.Forall₂ (Exports bare) otherTokens parts
        ∧ formulaLine bare ⟨.body, 0, 2⟩ otherCell
          = elementLine .body 0 2 parts.flatten := by
  have htokens : inlineTokens? (Formula.body otherCell)
      = some otherTokens := by decide +kernel
  have hform : Formula.form otherCell
      = .inline (renderInline otherTokens) := by
    have haggregate : (Formula.aggregateCall? (Formula.body otherCell)).isNone
        = true := by
      decide +kernel
    unfold Formula.form
    simp only [Option.isNone_iff_eq_none.1 haggregate, htokens]
  have hfits : ∀ table cell, .reference table cell ∈ otherTokens →
      CellFits cell := by
    have hexported : (expression? bare
        (.inline (renderInline otherTokens))).isSome = true := by
      decide +kernel
    obtain ⟨rhs, hrhs⟩ := Option.isSome_iff_exists.1 hexported
    obtain ⟨parts, hparts, -⟩ := (expression?_inline htokens).1 hrhs
    exact exists_exports.1 ⟨parts, hparts⟩
  obtain ⟨tokens, htokens', -, hline⟩ := inline_read_again.2 otherCell _ hform
  rw [htokens] at htokens'
  cases htokens'
  exact ⟨htokens, (inline_read_again.1 _ _ htokens).1, hform, hfits,
    (hline bare ⟨.body, 0, 2⟩).1 hfits⟩

end GridScript.Export
