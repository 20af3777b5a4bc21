/-
The lines of a command, read as a script. The ids, names, types and values
of a command are quoted where they are written, and a quoted text is one
token to the reader; so nothing in them is taken for syntax, and the blocks
that are read are those of the command (`parseBlocks_render`): a creation,
a call that mentions its table, or contexts behind the declaration of the
table's local name.

A formula that is written as it stands is the exception. Its blanks are
kept, a line break is a blank, and so a line of the command can be two
lines of the script. In no other way is a line broken
(`unbroken_render_iff`).
-/
import GridScript.Proofs.Command.Built
import GridScript.Proofs.Script.Naming

namespace GridScript

open Script
  (Block Names Piece Statement tokens mention? creation? declaration?
    parseBlocks blocksOf chunks flatLines headerLine bindingLine tableAlias
    projectLine)
open Text (Unbroken)

/-- The lines that a block was read from, if each of its statements has a
line of its own. -/
def Script.Block.written : Block → List Text
  | line l _ => [l]
  | creation _ _ call => [call]
  | declaration _ _ l => [l]
  | context table region statements =>
    headerLine table region :: statements.flatMap Statement.render

namespace Command

-- ================================================================ blocks

/-- Assignments in a region, if there are any. -/
def contextBlocks (id : Text) (region : Region) (assignments : List Text) :
    List Block :=
  if assignments.isEmpty then []
  else [.context id region (assignments.map statement)]

/-- Contexts behind the declaration of their table's local name. -/
def declared (id : Text) (contexts : List Block) : List Block :=
  if contexts.isEmpty then []
  else .declaration (tableAlias id) id (bindingLine id) :: contexts

/-- The line of a command that has one, with the table that the command is
about. -/
def lineBlocks (c : Command) : List Block :=
  (c.render.head?.map fun l => Block.line l c.tableId?).toList

/-- The blocks that a command is written as. -/
def blocks : Command → List Block
  | createTable new => [.creation none new.tableId (creationCall new)]
  | createSummary new => [.creation none new.tableId (summaryCall new)]
  | setCells id cells =>
    declared id (regionsByName.flatMap fun region =>
      contextBlocks id region (regionLines cells.entries region))
  | setRange id start values =>
    declared id (contextBlocks id start.region
      ((rangeCells start values).map fun (c, v) => cellLine c v))
  | setFormula id (.cell c) formula =>
    if clears formula then lineBlocks (setFormula id (.cell c) formula)
    else declared id (contextBlocks id .body [Formula.assignment c formula])
  | c => lineBlocks c

-- ================================================================= calls

theorem blocksOf_creation {l table : Text}
    (h : creation? (tokens l) = some ⟨none, table, l⟩) :
    (blocksOf .none [(Piece.line l).chunk]).1 = [.creation none table l] := by
  rw [Script.blocksOf_cons, Script.blockOf_creation h]
  rfl

/-- A call of the project that creates no table is a line with the table
that it mentions. -/
theorem blocksOf_call {l method rest : Text} {table : Option Text}
    (hl : l = projectLine method rest) (hmethod : Text.IsWord method)
    (hother : Script.creationMethods.contains method = false)
    (hmention : mention? [] (tokens l) = table) :
    (blocksOf .none [(Piece.line l).chunk]).1 = [.line l table] := by
  subst hl hmention
  rw [Script.blocksOf_cons,
    Script.blockOf_line (Script.creation?_projectLine hmethod hother rest)
    (Script.declaration?_projectLine hmethod rest)]
  rfl

/-- A call of a table mentions the table. -/
theorem blocksOf_tableCall (id : Text) (method : String) (args : List Text) :
    (blocksOf .none [(Piece.line (tableCall id method args)).chunk]).1
      = [.line (tableCall id method args) (some id)] := by
  refine blocksOf_call (tableCall_eq id method args) (by decide) (by decide) ?_
  unfold tableCall
  rw [Script.tokens_lookupCall]
  rfl

theorem tokens_pairCall {method key : String}
    (hmethod : Text.IsWord method.toList) (hkey : Text.IsWord key.toList)
    (first value : Text) :
    tokens (projectCall method [Script.quote first, quotedKeyword key value])
      = .word Script.projectName :: .mark '.' :: .word method.toList
          :: .mark '('
          :: .quoted (Script.quote first) first :: .mark ',' :: .mark ' '
          :: .word key.toList
          :: .mark '=' :: .quoted (Script.quote value) value :: .mark ')'
          :: [] := by
  have harguments : arguments [Script.quote first, quotedKeyword key value]
      = Script.quote first ++
        (", ".toList ++ (key.toList ++ '=' :: (Script.quote value ++ [')'])))
      := by
    unfold arguments quotedKeyword keyword
    simp only [Text.joinWith, List.append_assoc, List.cons_append]
  rw [projectCall_eq, Script.tokens_projectLine hmethod, harguments,
    Script.tokens_quotedPair hkey, Script.tokens_punctuation (by decide),
    Script.tokens_nil]

/-- A command with one line, or none, is read as this line. -/
theorem blocksOf_lines {c : Command}
    (h : c.render = [] ∨ ∃ l, c.render = [l]
      ∧ (blocksOf .none [(Piece.line l).chunk]).1 = [.line l c.tableId?]) :
    (blocksOf .none ((c.render.map Piece.line).map Piece.chunk)).1
      = lineBlocks c
      ∧ (lineBlocks c).flatMap Block.written = c.render := by
  unfold lineBlocks
  rcases h with hnone | ⟨l, hone, hread⟩
  · rw [hnone]
    exact ⟨rfl, rfl⟩
  · rw [hone]
    exact ⟨hread, rfl⟩

-- ============================================================== contexts

variable {id : Text}

/-- Where the local name stands for the table, a context is read as one of
the table, and the name goes on standing for it. -/
theorem blocksOf_blockPieces {n : Names}
    (hname : n.aliases.lookup (tableAlias id) = some id) (region : Region)
    (assignments : List Text) :
    (blocksOf n ((blockPieces id region assignments).map Piece.chunk)).1
        = contextBlocks id region assignments
      ∧ (blocksOf n
        ((blockPieces id region assignments).map Piece.chunk)).2.aliases
        = n.aliases := by
  unfold blockPieces contextBlocks
  split
  case isTrue => exact ⟨rfl, rfl⟩
  case isFalse =>
      rw [List.map_singleton, Script.blocksOf_cons,
        Script.blockOf_context hname]
      exact ⟨rfl, rfl⟩

theorem blocksOf_regions {n : Names}
    (hname : n.aliases.lookup (tableAlias id) = some id)
    (assignments : Region → List Text) (regions : List Region) :
    (blocksOf n ((regions.flatMap fun region =>
        blockPieces id region (assignments region)).map Piece.chunk)).1
      = regions.flatMap fun region => contextBlocks id region
        (assignments region) := by
  induction regions generalizing n with
  | nil => rfl
  | cons region regions ih =>
      obtain ⟨hfirst, haliases⟩ :=
        blocksOf_blockPieces hname region (assignments region)
      rw [List.flatMap_cons, List.map_append, Script.blocksOf_append,
        List.flatMap_cons, hfirst, ih (by rw [haliases]; exact hname)]

/-- Behind the binding of the local name the contexts of a table are read as
such. -/
theorem blocksOf_boundPieces {contexts : List Piece} {bs : List Block}
    (h : ∀ n : Names, n.aliases.lookup (tableAlias id) = some id →
      (blocksOf n (contexts.map Piece.chunk)).1 = bs) :
    (blocksOf .none ((boundPieces id contexts).map Piece.chunk)).1
      = declared id bs := by
  have hread := h (Names.none.bind (tableAlias id) id) (by simp [Names.bind])
  cases contexts with
  | nil =>
      subst hread
      rfl
  | cons p ps =>
      have hline :=
        Script.blockOf_declaration (n := .none)
          (Script.declaration?_bindingLine id)
      rw [Script.trimEnd_bindingLine] at hline
      show (blocksOf .none
          ((Piece.line (bindingLine id)).chunk :: (p :: ps).map Piece.chunk)).1
            = _
      rw [Script.blocksOf_cons, hline, hread]
      subst hread
      rfl

theorem written_contextBlocks (region : Region) (assignments : List Text) :
    (contextBlocks id region assignments).flatMap Block.written
      = blockLines id region assignments := by
  rw [← render_blockPieces]
  unfold contextBlocks blockPieces
  split <;> rfl

theorem written_declared (contexts : List Block) :
    (declared id contexts).flatMap Block.written
      = bound id (contexts.flatMap Block.written) := by
  cases contexts with
  | nil => rfl
  | cons b bs => cases b <;> rfl

-- =============================================================== reading

/-- The pieces of a command that is written anew are read as its blocks,
and these are what was written. -/
theorem blocksOf_pieces {c : Command} (hscript : ∀ lines, c ≠ script lines) :
    (blocksOf .none (c.pieces.map Piece.chunk)).1 = c.blocks
      ∧ c.blocks.flatMap Block.written = c.render := by
  cases c with
  | createSheet id name =>
      refine ⟨blocksOf_call (projectCall_eq _ _) (by decide) (by decide) ?_,
        rfl⟩
      rw [tokens_pairCall (by decide) (by decide)]
      rfl
  | renameSheet id name =>
      refine ⟨blocksOf_call (projectCall_eq _ _) (by decide) (by decide) ?_,
        rfl⟩
      rw [tokens_pairCall (by decide) (by decide)]
      rfl
  | createTable new =>
      exact ⟨blocksOf_creation (creation?_creationCall new), rfl⟩
  | createSummary new =>
      exact ⟨blocksOf_creation (creation?_summaryCall new), rfl⟩
  | resizeTable id rows cols =>
      refine blocksOf_lines (c := resizeTable id rows cols) ?_
      by_cases hnone : (dimensions rows cols).isEmpty = true
      · exact Or.inl (if_pos hnone)
      · exact Or.inr ⟨_, if_neg hnone, blocksOf_tableCall _ _ _⟩
  | minimizeTable id size =>
      refine blocksOf_lines (c := minimizeTable id size) ?_
      by_cases hsome : size.isSome = true
      · exact Or.inr ⟨_, if_pos hsome, blocksOf_tableCall _ _ _⟩
      · exact Or.inl (if_neg hsome)
  | setCells id cells =>
      refine ⟨blocksOf_boundPieces fun n hname =>
        blocksOf_regions hname (regionLines cells.entries) regionsByName, ?_⟩
      rw [blocks, written_declared, List.flatMap_assoc]
      simp only [written_contextBlocks]
      rfl
  | setRange id start values =>
      refine ⟨blocksOf_boundPieces fun n hname =>
        (blocksOf_blockPieces hname _ _).1, ?_⟩
      rw [blocks, written_declared, written_contextBlocks]
      rfl
  | setFormula id target formula =>
      cases target with
      | range r =>
          refine blocksOf_lines (c := setFormula id (.range r) formula)
            (Or.inr ?_)
          by_cases hclears : clears formula = true
          · exact ⟨_, if_pos hclears, blocksOf_tableCall _ _ _⟩
          · exact ⟨_, if_neg hclears, blocksOf_tableCall _ _ _⟩
      | cell c =>
          rw [pieces, blocks]
          split
          case isTrue hclears =>
              exact blocksOf_lines
                (Or.inr ⟨_, if_pos hclears, blocksOf_tableCall _ _ _⟩)
          case isFalse hclears =>
              refine ⟨blocksOf_boundPieces fun n hname =>
                (blocksOf_blockPieces hname _ _).1, ?_⟩
              rw [written_declared, written_contextBlocks, render,
                formulaLines, if_neg hclears]
  | script lines => exact absurd rfl (hscript lines)
  | _ => exact ⟨blocksOf_tableCall _ _ _, rfl⟩

/-- A command that is written anew and does not break a line is read as its
blocks. -/
theorem parseBlocks_of_not_breaks {c : Command}
    (hscript : ∀ lines, c ≠ script lines) (h : ¬c.Breaks) :
    (parseBlocks c.render).1 = c.blocks := by
  have hchunks : chunks c.render = c.pieces.map Piece.chunk := by
    rw [← render_pieces, Script.chunks_render (fit_of_not_breaks hscript h)]
  rw [← (blocksOf_pieces hscript).1, ← hchunks]
  rfl

/-- The lines of a flat command are read as its blocks, and as nothing
else. -/
theorem parseBlocks_render {c : Command} (h : c.Flat) :
    (parseBlocks c.render).1 = c.blocks
      ∧ c.blocks.flatMap Block.written = c.render :=
  ⟨parseBlocks_of_not_breaks h.ne_script h.not_breaks,
    (blocksOf_pieces h.ne_script).2⟩

/-- Values for the top labels of a table whose identifier looks like the
arguments of a call with a comment behind it. -/
def disguised : Command :=
  .setRange "x', table_id='y') # ".toList
    ⟨.topLabels, 0, 0⟩ [[.text "a'\n\\".toList, .boolean true]]

theorem parseBlocks_render_disguised :
    disguised.Flat ∧ (parseBlocks disguised.render).1
      = [.declaration "x___table_id__y_____".toList
            "x', table_id='y') # ".toList
            "x___table_id__y_____ = proj.table('x\\', table_id=\\'y\\') # ')".toList,
          .context "x', table_id='y') # ".toList .topLabels
            [⟨"a0 = 'a\\'\\n\\\\'".toList, []⟩,
              ⟨"b0 = True".toList, []⟩]] := by
  have hflat : disguised.Flat := trivial
  refine ⟨hflat, (parseBlocks_render hflat).1.trans ?_⟩
  decide +kernel

-- ================================================================ breaks

theorem Breaks.exists_formula {c : Command} (h : c.Breaks) :
    ∃ id target formula, c = setFormula id (.cell target) formula
      ∧ Formula.Breaks formula := by
  unfold Breaks at h
  split at h
  next id target formula => exact ⟨id, target, formula, rfl, h⟩
  next => exact h.elim

/-- The lines of a command that is written anew are unbroken exactly if no
formula in them breaks its line; and then they are lines of the script, and
each statement stays in its context. -/
theorem unbroken_render_iff {c : Command}
    (hscript : ∀ lines, c ≠ script lines) :
    ((∀ l ∈ c.render, Unbroken l) ↔ ¬c.Breaks)
      ∧ (¬c.Breaks → flatLines c.render = c.render
        ∧ (parseBlocks (flatLines c.render)).1 = c.blocks) := by
  have hunbroken : ¬c.Breaks → ∀ l ∈ c.render, Unbroken l := by
    intro h
    rw [← render_pieces]
    exact Script.unbroken_render (fit_of_not_breaks hscript h)
  refine ⟨⟨?_, hunbroken⟩, ?_⟩
  -- a formula that breaks stands in one of the lines as it was given
  · intro hall hbreaks
    obtain ⟨id, target, formula, rfl, hformula⟩ := hbreaks.exists_formula
    -- an empty formula has nothing to break
    have hclears : clears formula ≠ true := by
      intro hclears
      rw [clears, List.isEmpty_iff] at hclears
      exact hformula.2 (hclears ▸ Text.unbroken_nil)
    have hline : Script.indent ++ Formula.assignment target formula
        ∈ render (setFormula id (.cell target) formula) := by
      rw [render, formulaLines, if_neg hclears]
      exact List.mem_cons_of_mem _ (List.mem_cons_of_mem _ List.mem_cons_self)
    have hassignment := (Text.unbroken_append.1 (hall _ hline)).2
    exact (Formula.unbroken_assignment target formula).1 hassignment hformula
  · intro h
    have hflat := Script.flatLines_of_unbroken (hunbroken h)
    rw [hflat]
    exact ⟨rfl, parseBlocks_of_not_breaks hscript h⟩

/-- A sum with a line break in front of its second cell. -/
def brokenSum : Command :=
  .setFormula "t".toList (.cell ⟨.body, 0, 2⟩) "=A0+\nB0".toList

theorem unbroken_render_iff_brokenSum :
    (∀ lines, brokenSum ≠ .script lines)
      ∧ ¬∀ l ∈ brokenSum.render, Unbroken l := by
  have hscript : ∀ lines, brokenSum ≠ .script lines := nofun
  have hform : Formula.form "=A0+\nB0".toList = .inline "a0+\nb0".toList := by
    have haggregate : (Formula.aggregateCall? "A0+\nB0".toList).isNone
        = true := by decide +kernel
    have htokens : Formula.inlineTokens? "A0+\nB0".toList
        = some [.reference none "A0".toList, .operator '+', .blanks ['\n'],
            .reference none "B0".toList] := by decide +kernel
    have hbody : Formula.body "=A0+\nB0".toList = "A0+\nB0".toList := by decide
    unfold Formula.form
    simp only [hbody, Option.isNone_iff_eq_none.1 haggregate, htokens]
    rfl
  have hbreaks : brokenSum.Breaks := ⟨⟨_, hform⟩, by decide⟩
  exact ⟨hscript, fun hall => (unbroken_render_iff hscript).1.1 hall hbreaks⟩

end Command

end GridScript
