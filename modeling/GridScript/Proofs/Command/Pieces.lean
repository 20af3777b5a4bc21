/-
The lines of a command as pieces of a script. A command is written as
calls, which are lines by themselves, or as a binding with a context for
each region (`render_pieces`). Whatever ids, texts and numbers a command
holds, its pieces are fit to be read back (`fit_pieces`), and because the
binding stands in front of the contexts these are resolved wherever the
command is written (`resolved_pieces`).

Only the text of a formula can break a line, for an inline formula is not
quoted; `Command.Flat` excludes such formulas, and lines that are in the
script already.
-/
import GridScript.Command.Render
import GridScript.Proofs.Formula.Form
import GridScript.Proofs.Script.Calls
import GridScript.Proofs.Script.Log

namespace GridScript

open Script
  (Piece Statement Context Resolved Names headerLine bindingLine tableAlias)
open Text (Framed Unbroken isBlank)

namespace Command

-- ================================================================ pieces

/-- A statement of one line. -/
def statement (t : Text) : Statement := ⟨t, []⟩

/-- The context of statements, if there are any. -/
def blockPieces (id : Text) (region : Region) (statements : List Text) :
    List Piece :=
  if statements.isEmpty then []
  else [.context ⟨id, region, false, statements.map statement⟩]

/-- Contexts behind the binding of their table's local name. -/
def boundPieces (id : Text) (contexts : List Piece) : List Piece :=
  if contexts.isEmpty then [] else .line (bindingLine id) :: contexts

/-- The assignments of cells in a region, in the order of their addresses. -/
def regionLines (cells : List (Cell × Value)) (region : Region) : List Text :=
  ((cellsByText cells).filter fun (c, _) => c.region == region).map
    fun (c, v) => cellLine c v

/-- The pieces of a command. -/
def pieces : Command → List Piece
  | setCells id cells =>
    boundPieces id (regionsByName.flatMap fun region =>
      blockPieces id region (regionLines cells.entries region))
  | setRange id start values =>
    boundPieces id (blockPieces id start.region
      ((rangeCells start values).map fun (c, v) => cellLine c v))
  | setFormula id (.cell c) formula =>
    if clears formula then
      (render (.setFormula id (.cell c) formula)).map .line
    else boundPieces id (blockPieces id .body [Formula.assignment c formula])
  | c => c.render.map .line

theorem render_lines (ls : List Text) :
    (ls.map Piece.line).flatMap Piece.render = ls := by
  induction ls with
  | nil => rfl
  | cons l ls ih =>
      rw [List.map_cons, List.flatMap_cons, ih]
      rfl

theorem render_blockPieces (id : Text) (region : Region)
    (statements : List Text) :
    (blockPieces id region statements).flatMap Piece.render
      = blockLines id region statements := by
  unfold blockPieces blockLines
  split
  case isTrue => rfl
  case isFalse =>
      rw [List.flatMap_singleton, Piece.render, List.flatMap_map]
      show headerLine id region
          :: (statements.flatMap fun t => [Script.indent ++ t]) = _
      rw [List.map_eq_flatMap]

theorem render_boundPieces {id : Text} {contexts : List Piece}
    (h : ∀ p ∈ contexts, ∃ c, p = .context c ∧ c.table = id) :
    (boundPieces id contexts).flatMap Piece.render
      = bound id (contexts.flatMap Piece.render) := by
  unfold boundPieces bound
  cases contexts with
  | nil => rfl
  | cons p contexts =>
      obtain ⟨c, rfl, -⟩ := h p List.mem_cons_self
      rfl

theorem context_of_mem_blockPieces {id : Text} {region : Region}
    {statements : List Text} {p : Piece}
    (h : p ∈ blockPieces id region statements) :
    ∃ c, p = .context c ∧ c.table = id ∧ c.region = region ∧ c.gathered = false
      ∧ c.statements = statements.map statement ∧ statements ≠ [] := by
  unfold blockPieces at h
  split at h
  case isTrue => cases h
  case isFalse hne =>
      rw [List.mem_singleton.1 h]
      exact ⟨_, rfl, rfl, rfl, rfl, rfl, by simpa using hne⟩

theorem contexts_blockPieces (id : Text) (region : Region)
    (statements : List Text) :
    ∀ p ∈ blockPieces id region statements, ∃ c, p = .context c
      ∧ c.table = id := by
  intro p hp
  obtain ⟨c, rfl, htable, -⟩ := context_of_mem_blockPieces hp
  exact ⟨c, rfl, htable⟩

theorem contexts_regions (id : Text) (statements : Region → List Text)
    (regions : List Region) :
    ∀ p ∈ regions.flatMap fun region => blockPieces id region
      (statements region),
      ∃ c, p = .context c ∧ c.table = id := by
  intro p hp
  obtain ⟨region, -, hp⟩ := List.mem_flatMap.1 hp
  exact contexts_blockPieces id region (statements region) p hp

/-- A command is written as its pieces are. -/
theorem render_pieces (c : Command) :
    c.pieces.flatMap Piece.render = c.render := by
  cases c with
  | setCells id cells =>
      rw [pieces, render_boundPieces (contexts_regions id _ _),
        List.flatMap_assoc]
      simp only [render_blockPieces]
      rfl
  | setRange id start values =>
      rw [pieces, render_boundPieces (contexts_blockPieces id _ _),
        render_blockPieces]
      rfl
  | setFormula id target formula =>
      cases target with
      | range r => exact render_lines _
      | cell c =>
          by_cases hclears : clears formula = true
          · rw [pieces, if_pos hclears]
            exact render_lines _
          · rw [pieces, if_neg hclears,
              render_boundPieces (contexts_blockPieces id _ _),
              render_blockPieces, render, formulaLines, if_neg hclears]
  | _ => exact render_lines _

-- ======================================================= resolved pieces

theorem resolved_lines {n : Names} {ps : List Piece}
    (h : ∀ p ∈ ps, ∃ l, p = .line l) :
    Resolved n ps := by
  induction ps generalizing n with
  | nil => trivial
  | cons p ps ih =>
      obtain ⟨l, rfl⟩ := h p List.mem_cons_self
      exact ⟨trivial, ih fun q hq => h q (List.mem_cons_of_mem _ hq)⟩

theorem resolved_contexts {n : Names} {id : Text} {ps : List Piece}
    (hname : n.aliases.lookup (tableAlias id) = some id)
    (h : ∀ p ∈ ps, ∃ c, p = .context c ∧ c.table = id) : Resolved n ps := by
  induction ps generalizing n with
  | nil => trivial
  | cons p ps ih =>
      obtain ⟨c, rfl, rfl⟩ := h p List.mem_cons_self
      refine ⟨hname, ?_⟩
      rw [Script.blockOf_context hname]
      exact ih hname fun q hq => h q (List.mem_cons_of_mem _ hq)

/-- Behind its binding a table's name stands for the table. -/
theorem resolved_boundPieces {n : Names} {id : Text} {contexts : List Piece}
    (h : ∀ p ∈ contexts, ∃ c, p = .context c ∧ c.table = id) :
    Resolved n (boundPieces id contexts) := by
  unfold boundPieces
  split
  case isTrue => trivial
  case isFalse =>
      refine ⟨trivial, ?_⟩
      rw [Script.blockOf_declaration (Script.declaration?_bindingLine id)]
      exact resolved_contexts (by simp [Names.bind]) h

/-- The pieces of a command are resolved wherever they stand. -/
theorem resolved_pieces (n : Names) (c : Command) : Resolved n c.pieces := by
  have hlines : ∀ ls : List Text, Resolved n (ls.map Piece.line) := by
    intro ls
    refine resolved_lines ?_
    intro p hp
    obtain ⟨l, -, rfl⟩ := List.mem_map.1 hp
    exact ⟨l, rfl⟩
  cases c with
  | setCells id cells => exact resolved_boundPieces (contexts_regions id _ _)
  | setRange id start values =>
      exact resolved_boundPieces (contexts_blockPieces id _ _)
  | setFormula id target formula =>
      cases target with
      | range r => exact hlines _
      | cell c =>
          rw [pieces]
          split
          case isTrue => exact hlines _
          case isFalse =>
              exact resolved_boundPieces (contexts_blockPieces id _ _)
  | _ => exact hlines _

-- ============================================================ fit pieces

/-- The command is written anew, and its formula, if it has one, is
unbroken. -/
def Flat : Command → Prop
  | setFormula _ _ formula => Unbroken formula
  | script _ => False
  | _ => True

instance : DecidablePred Flat
  | setFormula _ _ formula => inferInstanceAs (Decidable (Unbroken formula))
  | script _ => .isFalse id
  | createSheet .. | renameSheet .. | createTable _ | createSummary
    _ | moveTable .. => .isTrue ⟨⟩
  | resizeTable .. | minimizeTable .. | setBands .. | setCells .. | setRange
    .. => .isTrue ⟨⟩
  | insertRows .. | insertCols .. | setColumnType .. => .isTrue ⟨⟩

/-- The command writes a formula as it stands, and a line breaks in it. -/
def Breaks : Command → Prop
  | setFormula _ (.cell _) formula => Formula.Breaks formula
  | _ => False

/-- What stands behind the opening parenthesis of a call. -/
def arguments (args : List Text) : Text :=
  Text.joinWith ", ".toList args ++ [')']

theorem projectCall_eq (method : String) (args : List Text) :
    projectCall method args
      = Script.projectLine method.toList (arguments args) := by
  unfold projectCall Script.projectLine Literal.call arguments
  rw [List.append_assoc, List.cons_append]

theorem tableCall_eq (id : Text) (method : String) (args : List Text) :
    tableCall id method args
      = Script.projectLine Script.lookupMethod
          (Script.quote id ++ (')' :: '.' :: Literal.call method args)) := by
  unfold tableCall Script.lookupCall Script.projectLine
  simp only [List.append_assoc, List.cons_append, List.nil_append]

theorem unbroken_arguments {args : List Text} (h : ∀ a ∈ args, Unbroken a) :
    Unbroken (arguments args) := by
  have hcomma : Unbroken ", ".toList := by decide
  unfold arguments
  rw [Text.unbroken_append]
  exact ⟨Text.unbroken_joinWith hcomma h, by decide⟩

/-- A call of the project is a line. -/
theorem plainLine_projectLine {method rest : Text}
    (hmethod : Text.IsWord method) (h : Unbroken rest) :
    Script.PlainLine (Script.projectLine method rest) := by
  refine ⟨?_, Or.inr rfl, Script.header?_projectLine hmethod rest⟩
  unfold Script.projectLine
  simp only [Text.unbroken_append, Text.unbroken_cons]
  exact ⟨by decide, by decide, hmethod.unbroken, by decide, h⟩

theorem plainLine_projectCall {method : String} {args : List Text}
    (hmethod : Text.IsWord method.toList) (h : ∀ a ∈ args, Unbroken a) :
    Script.PlainLine (projectCall method args) := by
  rw [projectCall_eq]
  exact plainLine_projectLine hmethod (unbroken_arguments h)

theorem plainLine_tableCall {method : String} {args : List Text} (id : Text)
    (hmethod : Text.IsWord method.toList) (h : ∀ a ∈ args, Unbroken a) :
    Script.PlainLine (tableCall id method args) := by
  have hcall := Literal.unbroken_call hmethod.unbroken h
  rw [tableCall_eq]
  refine plainLine_projectLine (by decide) ?_
  simp only [Text.unbroken_append, Text.unbroken_cons]
  exact ⟨Script.unbroken_quote id, by decide, by decide, hcall⟩

-- ============================================================= arguments

theorem unbroken_pair {a b : Text} (ha : Unbroken a) (hb : Unbroken b) :
    ∀ x ∈ [a, b], Unbroken x :=
  List.forall_mem_cons.2 ⟨ha, List.forall_mem_singleton.2 hb⟩

theorem unbroken_keyword {name : String} {v : Text}
    (hname : Unbroken name.toList) (h : Unbroken v) :
    Unbroken (keyword name v) := by
  unfold keyword
  rw [Text.unbroken_append, Text.unbroken_cons]
  exact ⟨hname, by decide, h⟩

theorem unbroken_quotedKeyword {name : String} (hname : Unbroken name.toList)
    (t : Text) :
    Unbroken (quotedKeyword name t) :=
  unbroken_keyword hname (Script.unbroken_quote t)

theorem unbroken_countKeyword {name : String} (hname : Unbroken name.toList)
    (n : Nat) :
    Unbroken (countKeyword name n) :=
  unbroken_keyword hname (Number.solid_decimal n).unbroken

theorem unbroken_dimensions (rows cols : Option Nat) :
    ∀ a ∈ dimensions rows cols, Unbroken a := by
  intro a ha
  rcases List.mem_append.1 ha with ha | ha
  · obtain ⟨n, rfl⟩ : ∃ n, countKeyword "rows" n = a := by
      cases rows with
      | none => cases ha
      | some n => exact ⟨n, (List.mem_singleton.1 ha).symm⟩
    exact unbroken_countKeyword (by decide) n
  · obtain ⟨n, rfl⟩ : ∃ n, countKeyword "cols" n = a := by
      cases cols with
      | none => cases ha
      | some n => exact ⟨n, (List.mem_singleton.1 ha).symm⟩
    exact unbroken_countKeyword (by decide) n

theorem plainLine_creationCall (new : NewTable) :
    Script.PlainLine (creationCall new) := by
  refine plainLine_projectCall (by decide) ?_
  intro a ha
  simp only [List.mem_cons, List.not_mem_nil, or_false] at ha
  rcases ha with rfl | rfl | rfl | rfl | rfl | rfl | rfl
  · exact Script.unbroken_quote _
  · exact unbroken_quotedKeyword (by decide) _
  · exact unbroken_quotedKeyword (by decide) _
  · exact unbroken_keyword (by decide) (Literal.unbroken_rect _)
  · exact unbroken_countKeyword (by decide) _
  · exact unbroken_countKeyword (by decide) _
  · exact unbroken_keyword (by decide) (Literal.unbroken_bands _)

theorem unbroken_aggregateArgument (aggregate col : Text) :
    Unbroken (aggregateArgument aggregate col) :=
  Literal.unbroken_call (by decide)
    (unbroken_pair (unbroken_quotedKeyword (by decide) aggregate)
      (unbroken_quotedKeyword (by decide) col))

theorem plainLine_summaryCall (new : NewSummary) :
    Script.PlainLine (summaryCall new) := by
  refine plainLine_projectCall (by decide) ?_
  intro a ha
  simp only [List.mem_append, List.mem_cons, List.not_mem_nil, or_false] at ha
  rcases ha with ((rfl | rfl | rfl | rfl | rfl) | ha) | rfl | rfl
  · exact Script.unbroken_quote _
  · exact unbroken_quotedKeyword (by decide) _
  · exact unbroken_quotedKeyword (by decide) _
  · exact unbroken_keyword (by decide) (Literal.unbroken_rect _)
  · exact unbroken_quotedKeyword (by decide) _
  · cases hrange : new.range with
    | none =>
        rw [hrange] at ha
        cases ha
    | some r =>
        rw [hrange] at ha
        rw [List.mem_singleton.1 ha]
        exact unbroken_quotedKeyword (by decide) _
  · exact unbroken_keyword (by decide) (Literal.unbroken_texts _)
  · refine unbroken_keyword (by decide) (Literal.unbroken_list ?_)
    intro i hi
    obtain ⟨v, -, rfl⟩ := List.mem_map.1 hi
    exact unbroken_aggregateArgument _ _

-- ============================================================ statements

theorem settled_statement {t : Text} (hunbroken : Unbroken t) (h : Framed t) :
    (statement t).Settled where
  head := h.first
  trimmed := h.trimEnd
  nested := fun l hl => by cases hl
  unbroken := by
    intro l hl
    rw [List.mem_singleton.1 hl]
    exact hunbroken

theorem cellLine_framed (c : Cell) (v : Value) :
    Unbroken (cellLine c v) ∧ Framed (cellLine c v) := by
  have hname := c.isWord_ident
  unfold cellLine
  refine ⟨?_, (hname.solid.framed hname.ne_nil).append v.framed_literal _⟩
  simp only [Text.unbroken_append]
  exact ⟨⟨hname.unbroken, by decide⟩, v.unbroken_literal⟩

theorem fit_blockPieces {id : Text} {region : Region} {statements : List Text}
    (h : ∀ t ∈ statements, Unbroken t ∧ Framed t) :
    ∀ p ∈ blockPieces id region statements, p.Fit := by
  intro p hp
  obtain ⟨c, rfl, -, -, -, hstatements, hne⟩ := context_of_mem_blockPieces hp
  refine ⟨?_, ?_⟩
  · rw [hstatements]
    simpa using hne
  · intro st hst
    rw [hstatements] at hst
    obtain ⟨t, ht, rfl⟩ := List.mem_map.1 hst
    exact settled_statement (h t ht).1 (h t ht).2

theorem fit_boundPieces {id : Text} {contexts : List Piece}
    (h : ∀ p ∈ contexts, p.Fit) :
    ∀ p ∈ boundPieces id contexts, p.Fit := by
  intro p hp
  unfold boundPieces at hp
  split at hp
  case isTrue => cases hp
  case isFalse =>
      rcases List.mem_cons.1 hp with rfl | hp
      · exact Script.plainLine_bindingLine id
      · exact h p hp

theorem fit_lines {ls : List Text} (h : ∀ l ∈ ls, Script.PlainLine l) :
    ∀ p ∈ ls.map Piece.line, p.Fit := by
  intro p hp
  obtain ⟨l, hl, rfl⟩ := List.mem_map.1 hp
  exact h l hl

theorem fit_call {l : Text} (h : Script.PlainLine l) :
    ∀ p ∈ [l].map Piece.line, p.Fit :=
  fit_lines fun m hm => by
    rw [List.mem_singleton.1 hm]
    exact h

theorem fit_tableCall {id : Text} {method : String} {args : List Text}
    (hmethod : Text.IsWord method.toList) (h : ∀ a ∈ args, Unbroken a) :
    ∀ p ∈ [tableCall id method args].map Piece.line, p.Fit :=
  fit_call (plainLine_tableCall id hmethod h)

theorem fit_cellLines (id : Text) (region : Region)
    (cells : List (Cell × Value)) :
    ∀ p ∈ blockPieces id region (cells.map fun (c, v) => cellLine c v),
      p.Fit := by
  refine fit_blockPieces ?_
  intro t ht
  obtain ⟨e, -, rfl⟩ := List.mem_map.1 ht
  exact cellLine_framed e.1 e.2

/-- The pieces that set a formula are fit, whether it clears its target, is
quoted or is written out, unless it then breaks its line. -/
theorem fit_setFormula {id : Text} {target : Target} {formula : Text}
    (h : ¬(setFormula id target formula).Breaks) :
    ∀ p ∈ (setFormula id target formula).pieces, p.Fit := by
  have hquoted : ∀ a b : Text, ∀ p ∈ [tableCall id "set_formula"
      [Script.quote a, Script.quote b]].map Piece.line, p.Fit := fun a b =>
    fit_tableCall (by decide)
      (unbroken_pair (Script.unbroken_quote a) (Script.unbroken_quote b))
  cases target with
  | range r =>
      show ∀ p ∈ (formulaLines id (.range r) formula).map Piece.line, p.Fit
      unfold formulaLines
      split <;> exact hquoted _ _
  | cell c =>
      rw [pieces]
      split
      case isTrue hclears =>
          rw [render, formulaLines, if_pos hclears]
          exact hquoted _ _
      case isFalse hclears =>
          -- what does not clear the cell has something to assign
          have hne : Formula.body formula ≠ [] := by
            simpa [clears] using hclears
          exact fit_boundPieces (fit_blockPieces (List.forall_mem_singleton.2
            ⟨(Formula.unbroken_assignment c formula).2 h,
              Formula.framed_assignment c hne⟩))

/-- The pieces of a command that is written anew are fit, unless its formula
breaks its line. -/
theorem fit_of_not_breaks {c : Command} (hscript : ∀ lines, c ≠ script lines)
    (h : ¬c.Breaks) :
    ∀ p ∈ c.pieces, p.Fit := by
  have hproject : ∀ {method : String} {args : List Text},
      Text.IsWord method.toList →
      (∀ a ∈ args, Unbroken a) →
        ∀ p ∈ [projectCall method args].map Piece.line, p.Fit :=
    fun hmethod hargs => fit_call (plainLine_projectCall hmethod hargs)
  have hnone : ∀ p ∈ ([] : List Text).map Piece.line, p.Fit := fun p hp => by
    cases hp
  cases c with
  | createSheet id name =>
      exact hproject (by decide)
        (unbroken_pair (Script.unbroken_quote _)
          (unbroken_quotedKeyword (by decide) _))
  | renameSheet id name =>
      exact hproject (by decide)
        (unbroken_pair (Script.unbroken_quote _)
          (unbroken_quotedKeyword (by decide) _))
  | createTable new => exact fit_call (plainLine_creationCall new)
  | createSummary new => exact fit_call (plainLine_summaryCall new)
  | moveTable id x y =>
      exact fit_tableCall (by decide)
        (unbroken_pair (Literal.unbroken_number x) (Literal.unbroken_number y))
  | resizeTable id rows cols =>
      show ∀ p ∈ (if (dimensions rows cols).isEmpty then []
        else
          [tableCall id "resize" (dimensions rows cols)]).map Piece.line, p.Fit
      split
      case isTrue => exact hnone
      case isFalse =>
          exact fit_tableCall (by decide) (unbroken_dimensions rows cols)
  | minimizeTable id size =>
      show ∀ p ∈ (if size.isSome then [tableCall id "minimize" []]
        else []).map Piece.line, p.Fit
      split
      case isTrue => exact fit_tableCall (by decide) fun a ha => by cases ha
      case isFalse => exact hnone
  | setBands id bands =>
      exact fit_tableCall (by decide) (Literal.unbroken_bandArguments bands)
  | setCells id cells =>
      refine fit_boundPieces ?_
      intro p hp
      obtain ⟨region, -, hp⟩ := List.mem_flatMap.1 hp
      exact fit_cellLines id region _ p hp
  | setRange id start values =>
      exact fit_boundPieces
        (fit_cellLines id start.region (rangeCells start values))
  | setFormula id target formula => exact fit_setFormula h
  | insertRows id at_ count =>
      exact fit_tableCall (by decide)
        (unbroken_pair (unbroken_countKeyword (by decide) at_)
          (unbroken_countKeyword (by decide) count))
  | insertCols id at_ count =>
      exact fit_tableCall (by decide)
        (unbroken_pair (unbroken_countKeyword (by decide) at_)
          (unbroken_countKeyword (by decide) count))
  | setColumnType id col type =>
      exact fit_tableCall (by decide)
        (unbroken_pair (Number.solid_decimal col).unbroken
          (Script.unbroken_quote type))
  | script lines => exact absurd rfl (hscript lines)

theorem Flat.ne_script {c : Command} (h : c.Flat) :
    ∀ lines, c ≠ script lines := by
  rintro lines rfl
  exact h

theorem Flat.not_breaks {c : Command} (h : c.Flat) : ¬c.Breaks := by
  cases c with
  | setFormula id target formula =>
      cases target with
      | cell c => exact Formula.not_breaks_of_unbroken h
      | range r => exact not_false
  | _ => exact not_false

/-- The pieces of a flat command are fit. -/
theorem fit_pieces {c : Command} (h : c.Flat) : ∀ p ∈ c.pieces, p.Fit :=
  fit_of_not_breaks h.ne_script h.not_breaks

end Command

end GridScript
