/-
The last assignment of a cell. A script is read from its top to its end,
so what a cell holds after it is what the last assignment gives; the
project holds what was written last. The two agree about a cell if all the
values that were written to it are gathered, or if the last one is not
(`lastAssigned?_eq_iff`). If not, they differ: a value that is gathered is
assigned where the table is created, in front of the older values that were
left in place.
-/
import GridScript.Proofs.Command.Log
import GridScript.Proofs.Command.Writes
import GridScript.Proofs.Document.InStep

namespace GridScript

open Script
  (Piece Statement Resolved createdIn bodyIn bodyOf dataIn normalPieces
    normalize)

-- =============================================================== reading

namespace Script

/-- What the lines of a statement assign to a name. -/
def Statement.assigned (name : Text) (st : Statement) : List Text :=
  st.lines.filterMap fun l =>
    (assignment? l).bind fun (target, value) =>
      if target = name then some value else none

/-- What lines assign to a cell in the blocks of its table's body, in the
order of the lines. -/
def assignedTo (id : Text) (cell : Cell) (ls : List Text) : List Text :=
  (bodyOf (parseBlocks ls).1 id).flatMap (Statement.assigned cell.ident)

/-- What a script assigns last to a cell of a table's body. -/
def lastAssigned? (id : Text) (cell : Cell) (script : Text) : Option Text :=
  (assignedTo id cell (Text.lines script)).getLast?

theorem assignedTo_render {ps : List Piece} (hfit : ∀ p ∈ ps, p.Fit)
    (h : Resolved .none ps) (id : Text) (cell : Cell) :
    assignedTo id cell (ps.flatMap Piece.render)
      = (bodyIn ps id).flatMap (Statement.assigned cell.ident) := by
  unfold assignedTo parseBlocks
  rw [chunks_render hfit]
  simp only [bodyOf_blocksOf h]

end Script

namespace Command

theorem assigned_cellStatement {cell : Cell} {e : Cell × Value}
    (h : e.1.region = cell.region) :
    (cellStatement e).assigned cell.ident = if e.1 = cell then [e.2.literal]
      else [] := by
  have hlines : (cellStatement e).lines = [cellLine e.1 e.2] := rfl
  unfold Statement.assigned
  rw [hlines, List.filterMap_cons, assignment?_cellLine, Option.bind_some]
  by_cases hcell : e.1 = cell
  · simp only [hcell, if_true, List.filterMap_nil]
  · have hname : e.1.ident ≠ cell.ident :=
      fun heq => hcell (Cell.ident_injective h heq)
    simp only [hname, hcell, if_false, List.filterMap_nil]

/-- Of the writes to a body, a cell is assigned the literals of its own
values. -/
theorem assigned_cellStatements {cell : Cell} {es : List (Cell × Value)}
    (h : ∀ e ∈ es, e.1.region = cell.region) :
    (es.map cellStatement).flatMap (Statement.assigned cell.ident)
      = (valuesFor cell es).map Value.literal := by
  induction es with
  | nil => rfl
  | cons e es ih =>
      rw [List.map_cons, List.flatMap_cons,
        assigned_cellStatement (h e List.mem_cons_self),
        ih fun d hd => h d (List.mem_cons_of_mem e hd), valuesFor_cons]
      split <;> rfl

theorem filter_cellStatements (p : Bool → Bool) (es : List (Cell × Value)) :
    (es.map cellStatement).filter (fun st => p st.isData)
      = (es.filter fun e => p e.2.isGathered).map cellStatement := by
  rw [List.filter_map]
  congr 2
  funext e
  exact congrArg p (isData_cellStatement e)

theorem valuesFor_filter (cell : Cell) (p : Value → Bool)
    (es : List (Cell × Value)) :
    valuesFor cell (es.filter fun e => p e.2)
      = (valuesFor cell es).filter p := by
  unfold valuesFor
  rw [List.filter_map, List.filter_filter, List.filter_filter]
  congr 2
  funext e
  exact Bool.and_comm _ _

/-- The line of a command that creates a table. -/
theorem exists_line_of_created? {c : Command} (h : c.Flat) {id : Text}
    (hid : c.created? = some id) :
    ∃ l, c.pieces = [.line l] ∧ (Piece.line l).created? = some id
      ∧ Text.allBlank l = false := by
  have hshape := shape_pieces h
  generalize c.pieces = ps at hshape ⊢
  cases hshape with
  | nothing hnone => simp [hid] at hnone
  | call rest hnone hmethod hother => simp [hid] at hnone
  | contexts hnone htable hcontexts => simp [hid] at hnone
  | @creation l table call hcreates hread hblank =>
      refine ⟨l, rfl, ?_, hblank⟩
      rw [Piece.created?, hread, ← hid, hcreates]
      rfl

end Command

-- ================================================================== logs

section

variable {cs : List Command} {q : Project} {id : Text}

/-- Where a log creates a table: what stands before has nothing to do with
it. -/
theorem exists_creation_pieces (hplain : ∀ c ∈ cs, c.Plain)
    (h : Project.empty.replay cs = .ok q) (hq : q.Has id) :
    ∃ before l after, cs.flatMap Command.pieces = before ++ .line l :: after
      ∧ (Piece.line l).created? = some id ∧ Text.allBlank l = false
      ∧ id ∉ createdIn before ∧ bodyIn before id = [] := by
  obtain ⟨before, c, after, rfl, hcreated, hbefore⟩ :=
    Project.exists_creation h (Project.not_has_empty id) hq
  obtain ⟨hplain, hc⟩ := List.forall_mem_append.1 hplain
  obtain ⟨l, hl, hline, hblank⟩ :=
    Command.exists_line_of_created? (hc c List.mem_cons_self).flat hcreated
  refine ⟨before.flatMap Command.pieces, l, after.flatMap Command.pieces, ?_,
    hline, hblank, ?_, ?_⟩
  · rw [List.flatMap_append, List.flatMap_cons, hl]
    rfl
  · intro hin
    obtain ⟨p, hp, hcreates⟩ := List.mem_filterMap.1 hin
    obtain ⟨d, hd, hp⟩ := List.mem_flatMap.1 hp
    have hmem : id ∈ createdIn d.pieces :=
      List.mem_filterMap.2 ⟨p, hp, hcreates⟩
    rw [Command.createdIn_pieces (hplain d hd).flat, Option.mem_toList] at hmem
    exact hbefore d hd (Command.tableId?_of_created? hmem)
  · rw [Command.bodyIn_commands hplain, List.map_eq_nil_iff,
      List.flatMap_eq_nil_iff]
    exact fun d hd => Command.bodyWrites_of_tableId? (hbefore d hd)

/-- What the body of a table assigns to a cell of it, the gathered values
and the others told apart. -/
theorem assigned_bodyIn (hplain : ∀ c ∈ cs, c.Plain) {cell : Cell}
    (hbody : cell.region = .body) (p : Bool → Bool) :
    ((bodyIn (cs.flatMap Command.pieces) id).filter fun st =>
        p st.isData).flatMap
        (Statement.assigned cell.ident)
      = ((cs.flatMap (Command.valuesAt id cell)).filter fun v =>
          p v.isGathered).map
          Value.literal := by
  have hregion :
      ∀ e ∈ (cs.flatMap (Command.bodyWrites id)).filter
          (fun e => p e.2.isGathered),
      e.1.region = cell.region := by
    intro e he
    obtain ⟨c, -, he⟩ := List.mem_flatMap.1 (List.mem_filter.1 he).1
    rw [Command.region_of_mem_bodyWrites he, hbody]
  rw [Command.bodyIn_commands hplain, Command.filter_cellStatements,
    Command.assigned_cellStatements hregion,
    Command.valuesFor_filter cell fun v => p v.isGathered,
    Command.valuesFor_commands hbody]

/-- A script with a line that is not blank is not empty. -/
theorem render_ne_empty {ps : List Piece} {l : Text} (h : Piece.line l ∈ ps)
    (hblank : Text.allBlank l = false) :
    ¬(ps.flatMap Piece.render = [] ∨ ps.flatMap Piece.render = [[]]) := by
  have hmem : l ∈ ps.flatMap Piece.render :=
    List.mem_flatMap.2 ⟨.line l, h, List.mem_singleton_self l⟩
  rintro (hnil | hempty)
  · rw [hnil] at hmem
    cases hmem
  · rw [hempty, List.mem_singleton] at hmem
    rw [hmem] at hblank
    cases hblank

/-- What the normal form of a log assigns to a cell of a table: the values
that are gathered and then the others, each in the order of the commands. -/
theorem assignedTo_normalize (hplain : ∀ c ∈ cs, c.Plain)
    (h : Project.empty.replay cs = .ok q) (hq : q.Has id) {cell : Cell}
    (hbody : cell.region = .body) :
    Script.assignedTo id cell
      (normalize ((cs.flatMap Command.pieces).flatMap Piece.render))
      = ((cs.flatMap (Command.valuesAt id cell)).filter Value.isGathered
          ++ (cs.flatMap (Command.valuesAt id cell)).filter fun v =>
            !v.isGathered).map
            Value.literal := by
  have hfit := Log.fit_pieces fun c hc => (hplain c hc).flat
  have hresolved := Script.resolved_flatMap Command.resolved_pieces .none cs
  obtain ⟨before, l, after, hpieces, hline, hblank, hnew, hbefore⟩ :=
    exists_creation_pieces hplain h hq
  have hmem : Piece.line l ∈ cs.flatMap Command.pieces := by
    rw [hpieces]
    exact List.mem_append_right _ List.mem_cons_self
  have hne := render_ne_empty hmem hblank
  -- the literals come first, and the others stay behind them
  have hnormal : bodyIn (normalPieces (cs.flatMap Command.pieces)) id
      = dataIn (cs.flatMap Command.pieces) id
        ++ (bodyIn (cs.flatMap Command.pieces) id).filter fun st =>
          !st.isData := by
    rw [hpieces] at hresolved ⊢
    exact Script.bodyIn_normalPieces hresolved hline hnew hbefore
  have hgathered : (dataIn (cs.flatMap Command.pieces) id).flatMap
        (Statement.assigned cell.ident)
      = ((cs.flatMap (Command.valuesAt id cell)).filter Value.isGathered).map
        Value.literal :=
    assigned_bodyIn hplain hbody fun gathered => gathered
  rw [Script.normalize_render hfit hne,
    Script.assignedTo_render (Script.fit_normalPieces hfit hresolved)
      (Script.resolved_normalPieces hresolved),
    hnormal, List.flatMap_append, List.map_append, hgathered,
    assigned_bodyIn hplain hbody Bool.not]

/-- The last of the gathered values and then the others is the last value
if and only if all are gathered or it is not. -/
theorem getLast?_gathered_iff {vs : List Value} {last : Value}
    (h : vs.getLast? = some last) :
    ((vs.filter Value.isGathered ++ vs.filter fun v => !v.isGathered).map
        Value.literal).getLast? = some last.literal
      ↔ (∀ v ∈ vs, v.isGathered = true) ∨ last.isGathered = false := by
  obtain ⟨older, rfl⟩ := List.getLast?_eq_some_iff.1 h
  cases hlast : last.isGathered with
  | false =>
      -- a last value that is not gathered stays the last
      have hothers : ((older ++ [last]).filter fun v => !v.isGathered)
          = (older.filter fun v => !v.isGathered) ++ [last] := by
        rw [List.filter_append, List.filter_cons_of_pos (by rw [hlast]; rfl),
          List.filter_nil]
      rw [hothers, ← List.append_assoc, List.map_append, List.map_singleton,
        List.getLast?_concat]
      simp only [or_true]
  | true =>
      simp only [Bool.true_eq_false, or_false]
      cases hothers : ((older ++ [last]).filter fun v =>
        !v.isGathered).getLast? with
      | none =>
          -- all are gathered, and the last is the last
          have hall : ∀ v ∈ older ++ [last], v.isGathered = true := by
            rw [List.getLast?_eq_none_iff, List.filter_eq_nil_iff] at hothers
            simpa using hothers
          rw [List.getLast?_eq_none_iff] at hothers
          rw [hothers, List.append_nil, List.filter_eq_self.2 hall,
            List.map_append, List.map_singleton, List.getLast?_concat]
          simp only [true_iff]
          exact hall
      | some other =>
          -- the last is written before one that is not gathered
          obtain ⟨hmem, hother⟩ :=
            List.mem_filter.1 (List.mem_of_getLast? hothers)
          rw [Bool.not_eq_true'] at hother
          rw [List.getLast?_map, List.getLast?_append, hothers]
          refine ⟨?_, ?_⟩
          · intro hsame
            injection hsame with hsame
            unfold Value.isGathered at hlast hother
            rw [← hsame, hother] at hlast
            cases hlast
          · intro hall
            rw [hall other hmem] at hother
            cases hother

end

namespace Document

-- ============================================================ executions

/-- A command that is executed is committed at once, unless it is idle or
refused. -/
theorem log_execute {d : Document} (hidle : d.log.active = none)
    (c : Command) :
    (d.execute c).2.log = ⟨d.log.committed, none⟩
      ∨ (d.execute c).2.log
        = ⟨d.log.committed ++ [⟨.general, [c]⟩], none⟩ := by
  rcases d.execute_cases c
    with ⟨-, -, hactive⟩ | ⟨-, hsettled, -⟩ | ⟨p, -, -, hexecute⟩
  · unfold Log.isActive at hactive
    rw [hidle] at hactive
    cases hactive
  · left
    rw [hsettled]
    rfl
  · right
    rw [hexecute]
    rfl

/-- The log of commands that were executed holds some of them, in their
order. -/
theorem log_performAll {d : Document} (hidle : d.log.active = none)
    (cs : List Command) :
    (d.performAll (cs.map .execute)).log.active = none
      ∧ (d.performAll (cs.map .execute)).log.commands.Sublist
        (d.log.commands ++ cs) := by
  induction cs generalizing d with
  | nil =>
      refine ⟨hidle, ?_⟩
      rw [List.append_nil]
      exact List.Sublist.refl _
  | cons c cs ih =>
      have hlog := log_execute hidle c
      have hnone : (d.perform (.execute c)).log.active = none := by
        rcases hlog with hlog | hlog <;> exact congrArg Log.active hlog
      have hcommands : (d.perform (.execute c)).log.commands.Sublist
          (d.log.commands ++ [c]) := by
        rcases hlog with hlog | hlog
        · have hsame : (d.perform (.execute c)).log.commands
              = d.log.commands :=
            (congrArg Log.commands hlog).trans rfl
          rw [hsame]
          exact List.sublist_append_left _ _
        · have hmore : (d.perform (.execute c)).log.commands
              = d.log.commands ++ [c] := by
            have hall := congrArg Log.commands hlog
            unfold Log.commands at hall ⊢
            rwa [List.flatMap_append, List.flatMap_singleton] at hall
          exact hmore ▸ List.Sublist.refl _
      obtain ⟨hactive, hrest⟩ := ih hnone
      refine ⟨hactive, hrest.trans ?_⟩
      have happend := hcommands.append_right cs
      rwa [List.append_assoc, List.singleton_append] at happend

-- ======================================================== the theorem

/-- Commands without formulas are executed in a new document. The script
assigns to a cell last what the project holds there if and only if all the
values that were written to the cell are gathered or the last one is not. -/
theorem lastAssigned?_eq_iff (counter : Nat) (helperModule : Text)
    (cs : List Command) (hplain : ∀ c ∈ cs, c.Plain) (id : Text) (cell : Cell)
    (hbody : cell.region = .body) :
    let d := (blank counter helperModule).performAll (cs.map .execute)
    let written := d.log.commands.flatMap (Command.valuesAt id cell)
    written ≠ [] →
      (Script.lastAssigned? id cell d.generatedText
        = some (d.project.valueAt id cell).literal
        ↔ (∀ v ∈ written, v.isGathered = true)
          ∨ ∃ last, written.getLast? = some last
            ∧ last.isGathered = false) := by
  intro d written hwritten
  obtain ⟨hidle, hsublist⟩ :=
    log_performAll (d := blank counter helperModule) rfl cs
  have hcommands : ∀ c ∈ d.log.commands, c.Plain :=
    fun c hc => hplain c (hsublist.subset hc)
  have hinStep : InStep (Script.newScript helperModule) d :=
    (inStep_blank counter helperModule).performAll
      (Script.newScript_ne_nil helperModule) _
  have hreplay := hinStep.committed
  rw [hinStep.baseline_eq hidle] at hreplay
  -- the table is there, for it is written to
  have htable : d.project.Has id := by
    refine Decidable.byContradiction fun hnone => hwritten ?_
    refine List.flatMap_eq_nil_iff.2 fun c hc => ?_
    have hother := Project.tableId?_of_replay hreplay hnone c hc
    rw [← Command.valuesFor_bodyWrites hbody,
      Command.bodyWrites_of_tableId? hother]
    rfl
  obtain ⟨last, hlast⟩ : ∃ last, written.getLast? = some last :=
    ⟨_, List.getLast?_eq_some_getLast hwritten⟩
  have hvalue : d.project.valueAt id cell = last := by
    rw [Project.valueAt_replay hcommands hreplay]
    show written.getLast?.getD _ = last
    rw [hlast]
    rfl
  -- the text assigns what was gathered, and then the rest
  have hassigned : Script.lastAssigned? id cell d.generatedText
      = ((written.filter Value.isGathered ++ written.filter fun v =>
          !v.isGathered).map
          Value.literal).getLast? := by
    have hfit := Log.fit_pieces fun c hc => (hcommands c hc).flat
    have hresolved :=
      Script.resolved_flatMap Command.resolved_pieces .none d.log.commands
    have hunbroken := Script.unbroken_normalize hfit hresolved
    unfold Script.lastAssigned? generatedText
    rw [Log.lines_eq, Text.lines_unlines hunbroken,
      assignedTo_normalize hcommands hreplay htable hbody]
  rw [hassigned, hvalue, getLast?_gathered_iff hlast, hlast]
  simp only [Option.some.injEq, exists_eq_left']

/-- A cell that is given a text with a quote in it and then a truth value. -/
def overwritten : List Command :=
  [.createSheet "s".toList "S".toList,
   .createTable ⟨"s".toList, "t".toList, "T".toList, default, 2, 2, .none⟩,
   .setCell "t".toList ⟨.body, 0, 0⟩ (.text "it's".toList),
   .setCell "t".toList ⟨.body, 0, 0⟩ (.boolean true)]

theorem lastAssigned?_overwritten :
    let d :=
  (blank 0 Script.defaultModule).performAll (overwritten.map .execute)
    (∀ c ∈ overwritten, c.Plain)
      ∧ d.project.valueAt "t".toList ⟨.body, 0, 0⟩ = .boolean true
      ∧ Script.lastAssigned? "t".toList ⟨.body, 0, 0⟩ d.generatedText
        ≠ some (d.project.valueAt "t".toList ⟨.body, 0, 0⟩).literal := by
  intro d
  have hplain : ∀ c ∈ overwritten, c.Plain := by decide
  have hwritten : d.log.commands.flatMap
      (Command.valuesAt "t".toList ⟨.body, 0, 0⟩)
      = [.text "it's".toList, .boolean true] := by decide
  have hiff :=
    lastAssigned?_eq_iff 0 Script.defaultModule overwritten hplain "t".toList
    ⟨.body, 0, 0⟩ rfl (by rw [hwritten]; exact List.cons_ne_nil _ _)
  refine ⟨hplain, by decide, ?_⟩
  intro hsame
  have hcondition := hiff.1 hsame
  rw [hwritten] at hcondition
  revert hcondition
  decide

end Document

end GridScript
