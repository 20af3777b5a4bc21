/-
What commands write to a table's body in a script. A plain command writes
the assignments of the cells of its table, and an assignment tells its
cell and its value (`assignment?_cellLine`). The cells of a map are written
in another order than they are applied in, but no cell stands in a map
twice, so the values of each cell have one order (`valuesFor_bodyWrites`).

A value is gathered if its literal is recognized as one. Texts with quotes
in them, dates and times are not, nor are numbers that have no numeral.
-/
import GridScript.Proofs.Command.Built
import GridScript.Proofs.Project.Values
import GridScript.Proofs.Script.Gathering

namespace GridScript

open Script (Piece Statement bodyIn tokens)

-- =========================================================== assignments

namespace Script

theorem isTarget_of_isWord {name : Text} (h : Text.IsWord name) :
    isTarget name = true := by
  have hne : name.isEmpty = false := by simpa using h.ne_nil
  have hall : (name.all fun c => Text.isWordChar c || c == '.') = true := by
    rw [List.all_eq_true]
    intro c hc
    rw [h.isWordChar c hc]
    rfl
  unfold isTarget
  rw [hne, hall]
  rfl

/-- A text behind the name that it is assigned to. -/
theorem assignment?_of_isWord {name value : Text} (hname : Text.IsWord name)
    (hvalue : Text.Framed value) :
    assignment? (name ++ " = ".toList ++ value) = some (name, value) := by
  have htokens : tokens (name ++ " = ".toList ++ value)
      = .word name :: .mark ' ' :: .mark '=' :: .mark ' ' :: tokens value := by
    rw [List.append_assoc, tokens_binding hname]
  have hsource : sourceOf (.mark ' ' :: tokens value) = ' ' :: value := by
    show [' '] ++ sourceOf (tokens value) = _
    rw [sourceOf_tokens]
    rfl
  -- the name is cut off with the blank behind it, and the value with the one
  -- in front of it
  have hcut : cutAtAssign? 0 none (tokens (name ++ " = ".toList ++ value))
      = some (name ++ [' '], ' ' :: value) := by
    have hspace : isQuote ' ' = false := by decide
    have hequals : isQuote '=' = false := by decide
    have hchanges : changesEquals ' ' = false := by decide
    have hdepth : depthAfter 0 ' ' = 0 := by decide
    rw [htokens]
    simp only [cutAtAssign?, hspace, hequals, hchanges, hdepth, hsource,
      Bool.false_eq_true, if_false, Char.reduceEq, false_and, and_self,
      if_true, Option.map_some, Option.getD_some,
      List.head?_cons, Bool.false_or]
    rfl
  have hlhs : Text.trim (name ++ [' ']) = name := by
    have hframed := hname.solid.framed hname.ne_nil
    have hblank : Text.allBlank [' '] = true := by decide
    obtain ⟨c, rest, heq, hc⟩ := hframed.first
    have hend : Text.trimEnd (c :: rest) = c :: rest := heq ▸ hframed.trimEnd
    rw [heq, List.cons_append, Text.trim_of_head hc, ← List.cons_append,
      Text.trimEnd_append_blank hblank, hend]
  have hrhs : Text.trim (' ' :: value) = value := hvalue.trim
  have hne : value.isEmpty = false := by
    obtain ⟨c, rest, rfl, -⟩ := hvalue.first
    rfl
  unfold assignment?
  rw [hcut]
  simp only [Option.bind_eq_bind, Option.bind_some, hlhs, hrhs,
    isTarget_of_isWord hname, hne, Bool.not_false, Bool.and_self, if_true]
  rfl

end Script

/-- The literal of the value is recognized as one and is gathered. -/
def Value.isGathered (v : Value) : Bool := Script.isLiteral v.literal

namespace Command

-- ============================================================ statements

/-- An assignment tells its cell and its value. -/
theorem assignment?_cellLine (c : Cell) (v : Value) :
    Script.assignment? (cellLine c v) = some (c.ident, v.literal) :=
  Script.assignment?_of_isWord c.isWord_ident v.framed_literal

/-- The statement that writes a value to a cell. -/
def cellStatement (e : Cell × Value) : Statement :=
  statement (cellLine e.1 e.2)

theorem isData_cellStatement (e : Cell × Value) :
    (cellStatement e).isData = e.2.isGathered := by
  unfold Statement.isData cellStatement statement
  rw [assignment?_cellLine]
  exact Bool.true_and _

-- ================================================================ bodies

/-- What a plain command writes to the cells of a table's body, in the
order of its lines. -/
def bodyWrites (id : Text) : Command → List (Cell × Value)
  | setCells id' cells =>
    if id' = id then
      (cellsByText cells.entries).filter fun (c, _) => c.region == .body
        else []
  | setRange id' start values =>
    if id' = id ∧ start.region = .body then rangeCells start values else []
  | _ => []

theorem bodyIn_lines (ls : List Text) (id : Text) :
    bodyIn (ls.map Piece.line) id = [] := by
  unfold bodyIn
  rw [List.flatMap_map]
  exact List.flatMap_eq_nil_iff.2 fun l _ => rfl

theorem bodyIn_boundPieces (id' id : Text) (contexts : List Piece) :
    bodyIn (boundPieces id' contexts) id = bodyIn contexts id := by
  unfold boundPieces
  split
  case isTrue hnil => rw [List.isEmpty_iff.1 hnil]
  case isFalse => rfl

theorem bodyIn_blockPieces (id' id : Text) (region : Region)
    (statements : List Text) :
    bodyIn (blockPieces id' region statements) id
      = if id' = id ∧ region = .body then statements.map statement
        else [] := by
  unfold blockPieces
  split
  case isTrue hnil =>
      rw [List.isEmpty_iff.1 hnil, List.map_nil, ite_self]
      rfl
  case isFalse =>
      rw [Script.bodyIn_cons, Piece.body]
      exact List.append_nil _

/-- The body of a plain command's pieces assigns what the command writes
there. -/
theorem bodyIn_pieces {c : Command} (h : c.Plain) (id : Text) :
    bodyIn c.pieces id = (c.bodyWrites id).map cellStatement := by
  cases c with
  | setCells id' cells =>
      rw [pieces, bodyIn_boundPieces, bodyWrites]
      -- of the five regions only the body has statements that count
      unfold regionsByName
      simp only [List.flatMap_cons, List.flatMap_nil, Script.bodyIn_append,
        bodyIn_blockPieces, reduceCtorEq, and_true, and_false, if_false]
      split
      case isTrue =>
          rw [regionLines, List.map_map, List.nil_append, List.nil_append,
            List.nil_append]
          exact List.append_nil _
      case isFalse => rfl
  | setRange id' start values =>
      rw [pieces, bodyIn_boundPieces, bodyIn_blockPieces, bodyWrites]
      split
      case isTrue =>
          rw [List.map_map]
          rfl
      case isFalse => rfl
  | setFormula id' target formula => exact h.elim
  | script lines => exact h.elim
  | _ => exact bodyIn_lines _ id

theorem Plain.flat {c : Command} (h : c.Plain) : c.Flat := by
  cases c with
  | setFormula id target formula => exact h.elim
  | script lines => exact h.elim
  | _ => trivial

theorem bodyIn_commands {cs : List Command} (h : ∀ c ∈ cs, c.Plain)
    (id : Text) :
    bodyIn (cs.flatMap pieces) id
      = (cs.flatMap (bodyWrites id)).map cellStatement := by
  induction cs with
  | nil => rfl
  | cons c cs ih =>
      rw [List.flatMap_cons, Script.bodyIn_append,
        bodyIn_pieces (h c List.mem_cons_self), ih fun d hd =>
          h d (List.mem_cons_of_mem c hd), List.flatMap_cons, List.map_append]

/-- A command writes to no table but the one that it is about. -/
theorem bodyWrites_of_tableId? {id : Text} {c : Command}
    (h : c.tableId? ≠ some id) :
    c.bodyWrites id = [] := by
  cases c with
  | setCells id' cells => exact if_neg fun heq => h (congrArg some heq)
  | setRange id' start values =>
      exact if_neg fun heq => h (congrArg some heq.1)
  | _ => rfl

theorem region_of_mem_rangeCells {start : Cell} {values : List (List Value)}
    {e : Cell × Value} (h : e ∈ rangeCells start values) :
    e.1.region = start.region := by
  obtain ⟨⟨row, r⟩, -, h⟩ := List.mem_flatMap.1 h
  obtain ⟨⟨v, c⟩, -, rfl⟩ := List.mem_map.1 h
  rfl

theorem region_of_mem_bodyWrites {c : Command} {id : Text} {e : Cell × Value}
    (h : e ∈ c.bodyWrites id) : e.1.region = .body := by
  cases c with
  | setCells id' cells =>
      rw [bodyWrites] at h
      split at h
      case isTrue => simpa using (List.mem_filter.1 h).2
      case isFalse => cases h
  | setRange id' start values =>
      rw [bodyWrites] at h
      split at h
      case isTrue hin => rw [region_of_mem_rangeCells h, hin.2]
      case isFalse => cases h
  | _ => cases h

theorem valuesFor_filter_body {cell : Cell} (hbody : cell.region = .body)
    (es : List (Cell × Value)) :
    valuesFor cell (es.filter fun (c, _) => c.region == .body)
      = valuesFor cell es := by
  unfold valuesFor
  rw [List.filter_filter]
  congr 1
  refine List.filter_congr ?_
  rintro ⟨c, v⟩ -
  by_cases heq : c = cell
  · simp [heq, hbody]
  · simp [heq]

/-- A map has at most one value for a cell, so the order is no matter. -/
theorem valuesFor_cellsByText (cell : Cell) (cells : SortedMap Cell Value) :
    valuesFor cell (cellsByText cells.entries)
      = valuesFor cell cells.entries := by
  have hperm : (valuesFor cell (cellsByText cells.entries)).Perm
      (valuesFor cell cells.entries) :=
    ((List.mergeSort_perm _ _).filter _).map _
  rw [SortedMap.valuesFor_entries] at hperm ⊢
  cases hfound : cells.get? cell with
  | none =>
      rw [hfound] at hperm
      exact List.perm_nil.1 hperm
  | some v =>
      rw [hfound] at hperm
      exact List.perm_singleton.1 hperm

/-- Each cell of the body is given the same values in the order of the
lines as in the order of application. -/
theorem valuesFor_bodyWrites {cell : Cell} (hbody : cell.region = .body)
    (id : Text) (c : Command) :
    valuesFor cell (c.bodyWrites id) = c.valuesAt id cell := by
  unfold valuesAt
  cases c with
  | setCells id' cells =>
      rw [bodyWrites, writes]
      split
      case isFalse => rfl
      case isTrue => rw [valuesFor_filter_body hbody, valuesFor_cellsByText]
  | setRange id' start values =>
      rw [bodyWrites, writes]
      by_cases hid : id' = id
      · rw [if_pos hid]
        by_cases hregion : start.region = .body
        · rw [if_pos ⟨hid, hregion⟩]
        -- a range stays in the region that it starts in
        · have hnone : valuesFor cell (rangeCells start values) = [] := by
            refine valuesFor_of_not_mem ?_
            rintro e he rfl
            exact hregion ((region_of_mem_rangeCells he).symm.trans hbody)
          rw [if_neg fun h => hregion h.2, hnone]
          rfl
      · rw [if_neg hid, if_neg fun h => hid h.1]
  | _ => rfl

theorem valuesFor_commands {cell : Cell} (hbody : cell.region = .body)
    (id : Text) (cs : List Command) :
    valuesFor cell (cs.flatMap (bodyWrites id))
      = cs.flatMap (valuesAt id cell) := by
  induction cs with
  | nil => rfl
  | cons c cs ih =>
      rw [List.flatMap_cons, List.flatMap_cons, valuesFor_append,
        valuesFor_bodyWrites hbody, ih]

end Command

end GridScript
