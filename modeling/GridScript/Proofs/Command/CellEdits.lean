/-
Typing into cells. The edits of one table in a transaction are merged into
one command, and the lines of that command tell what the cells hold in the
end and nothing of the way there (`cellEdit_tells_contents`).

# The order of lines

Cells are written in the order of their texts. No two cells share a text,
so a list of cells in that order is determined by what is in it
(`Increasing.eq_of_mem_iff`), in whatever order the cells came. The texts
begin with the names of the regions, of which none begins another, so the
order is first one of the regions' names: each region's cells stand
together (`flatMap_cellsIn`), and one pass that begins a block wherever the
region changes makes one block for each region (`blocksInTurn_eq`).
-/
import GridScript.Proofs.Command.Writes
import GridScript.Proofs.Grid.Address
import Mathlib.Data.List.Sort

namespace GridScript

namespace Command

open Script (headerLine bindingLine)

-- ===================================================== the order of texts

section Order

variable {α : Type}

/-- Entries in the strict order of their cells' texts. -/
def Increasing (es : List (Cell × α)) : Prop :=
  es.Pairwise fun a b => compare a.1.text b.1.text = .lt

private theorem irrefl_text :
    Std.Irrefl fun a b : Cell × α => compare a.1.text b.1.text = .lt :=
  ⟨fun a h => by rw [Std.ReflOrd.compare_self] at h; cases h⟩

private theorem antisymm_text :
    Std.Antisymm fun a b : Cell × α => compare a.1.text b.1.text = .lt :=
  ⟨fun a b hab hba => by rw [Std.OrientedCmp.gt_of_lt hab] at hba; cases hba⟩

/-- Entries in order are determined by what is among them. -/
theorem Increasing.eq_of_mem_iff {es fs : List (Cell × α)}
    (hes : Increasing es) (hfs : Increasing fs) (h : ∀ e, e ∈ es ↔ e ∈ fs) :
    es = fs := by
  have := irrefl_text (α := α)
  have := antisymm_text (α := α)
  exact List.Pairwise.eq_of_mem_iff hes hfs h

/-- Some of the entries in order are a part of all of them. -/
theorem Increasing.sublist {es fs : List (Cell × α)} (hes : Increasing es)
    (hfs : Increasing fs) (h : es ⊆ fs) : es.Sublist fs := by
  have := irrefl_text (α := α)
  have := antisymm_text (α := α)
  have hnodup : es.Nodup := List.Pairwise.nodup hes
  exact List.sublist_of_subperm_of_pairwise
    (List.subperm_of_subset hnodup h) hes hfs

/-- The texts of cells of different regions stand in the order of the
regions' names. -/
theorem compare_text {a b : Cell} (h : a.region ≠ b.region) :
    compare a.text b.text = compare a.region.name b.region.name := by
  have hnames : ∀ r s : Region, r ≠ s → ∀ t u : Text,
      compare (r.name ++ t) (s.name ++ u) = compare r.name s.name := by
    intro r s hne t u
    cases r <;> cases s <;> first | exact absurd rfl hne | rfl
  unfold Cell.text
  rw [List.append_assoc, List.append_assoc]
  exact hnames _ _ h _ _

/-- The entries of a region. -/
def cellsIn (region : Region) (es : List (Cell × α)) : List (Cell × α) :=
  es.filter fun e => e.1.region == region

theorem mem_cellsIn {region : Region} {es : List (Cell × α)} {e : Cell × α} :
    e ∈ cellsIn region es ↔ e ∈ es ∧ e.1.region = region := by
  unfold cellsIn
  rw [List.mem_filter, beq_iff_eq]

theorem mem_regionsByName (region : Region) :
    region ∈ regionsByName := by cases region <;> decide

theorem regionsByName_increasing :
    regionsByName.Pairwise fun r s => r ≠ s ∧ compare r.name s.name = .lt := by
  decide

/-- Region by region, entries in order are in order. -/
theorem Increasing.cellsIn {es : List (Cell × α)} (h : Increasing es) :
    Increasing
      (regionsByName.flatMap fun region => Command.cellsIn region es) := by
  unfold Increasing
  rw [List.pairwise_flatMap]
  refine ⟨fun region _ => List.Pairwise.filter _ h, ?_⟩
  refine regionsByName_increasing.imp fun ⟨hne, hlt⟩ a ha b hb => ?_
  obtain ⟨-, rfl⟩ := mem_cellsIn.1 ha
  obtain ⟨-, rfl⟩ := mem_cellsIn.1 hb
  rw [compare_text hne, hlt]

/-- In the order of the texts the cells of a region stand together, and the
regions follow each other by their names. -/
theorem flatMap_cellsIn {es : List (Cell × α)} (h : Increasing es) :
    (regionsByName.flatMap fun region => cellsIn region es) = es := by
  refine h.cellsIn.eq_of_mem_iff h fun e => ?_
  rw [List.mem_flatMap]
  constructor
  · rintro ⟨region, -, he⟩
    exact (mem_cellsIn.1 he).1
  · intro he
    exact ⟨e.1.region, mem_regionsByName _, mem_cellsIn.2 ⟨he, rfl⟩⟩

end Order

/-- Cells that are told apart are sorted strictly. -/
theorem increasing_cellsByText {es : List (Cell × Value)}
    (h : (es.map Prod.fst).Nodup) :
    Increasing (cellsByText es) := by
  have hperm : (cellsByText es).Perm es := List.mergeSort_perm _ _
  have hsorted : (cellsByText es).Pairwise fun a b => compare a.1.text b.1.text
      ≠ .gt := by
    refine (@List.pairwise_mergeSort _
      (fun a b => compare a.1.text b.1.text != .gt) ?_ ?_ es).imp
      fun hle => bne_iff_ne.1 hle
    · intro a b c hab hbc
      have hle := Ordering.ne_gt_iff_isLE.1 (bne_iff_ne.1 hab)
      have hle' := Ordering.ne_gt_iff_isLE.1 (bne_iff_ne.1 hbc)
      exact bne_iff_ne.2
        (Ordering.ne_gt_iff_isLE.2 (Std.TransCmp.isLE_trans hle hle'))
    · intro a b
      have hswap : compare b.1.text a.1.text
          = (compare a.1.text b.1.text).swap :=
        Std.OrientedCmp.eq_swap
      rw [Bool.or_eq_true, bne_iff_ne, bne_iff_ne, hswap]
      cases compare a.1.text b.1.text <;> decide
  have hdistinct : (cellsByText es).Pairwise fun a b => a.1 ≠ b.1 :=
    List.pairwise_map.1 ((hperm.map Prod.fst).nodup_iff.2 h)
  refine (hsorted.and hdistinct).imp fun {a b} ⟨hle, hne⟩ => ?_
  cases hcompare : compare a.1.text b.1.text with
  | lt => rfl
  | gt => exact absurd hcompare hle
  | eq =>
      -- one text is one cell, and each cell stands there once
      exact absurd
        (Cell.text_injective (Std.LawfulEqCmp.eq_of_compare hcompare)) hne

theorem mem_cellsByText {es : List (Cell × Value)} {e : Cell × Value} :
    e ∈ cellsByText es ↔ e ∈ es := (List.mergeSort_perm _ _).mem_iff

-- ================================================================ blocks

theorem regionLines_eq (es : List (Cell × Value)) (region : Region) :
    regionLines es region
      = (cellsIn region (cellsByText es)).map fun e => cellLine e.1 e.2 := rfl

theorem cellBlocks_eq (id : Text) (es : List (Cell × Value)) :
    cellBlocks id es
      = regionsByName.flatMap fun region => blockLines id region
        (regionLines es region) := rfl

/-- The blocks that one pass over cells makes. It gathers the lines of a
region, and writes them as a block where the region changes and at the
end. -/
def blocksInTurn (id : Text) :
    Option (Region × List Text) → List (Cell × Value) → List Text
  | none, [] => []
  | none, (c, v) :: es => blocksInTurn id (some (c.region, [cellLine c v])) es
  | some (region, ls), [] => blockLines id region ls
  | some (region, ls), (c, v) :: es =>
    if c.region = region then
      blocksInTurn id (some (region, ls ++ [cellLine c v])) es
    else
      blockLines id region ls
        ++ blocksInTurn id (some (c.region, [cellLine c v])) es

section Pass

variable {id : Text} {region : Region} {ls : List Text}
  {es : List (Cell × Value)}

/-- Cells of the region that is gathered join it. -/
theorem blocksInTurn_same (h : ∀ e ∈ es, e.1.region = region)
    (fs : List (Cell × Value)) :
    blocksInTurn id (some (region, ls)) (es ++ fs)
      = blocksInTurn id (some (region, ls ++ es.map fun e => cellLine e.1 e.2))
        fs := by
  induction es generalizing ls with
  | nil => rw [List.map_nil, List.append_nil, List.nil_append]
  | cons e es ih =>
      obtain ⟨c, v⟩ := e
      obtain ⟨hc, hes⟩ := List.forall_mem_cons.1 h
      rw [List.cons_append, blocksInTurn, if_pos hc, ih hes, List.map_cons,
        List.append_assoc, List.singleton_append]

/-- In front of cells of other regions, what is gathered is written. -/
theorem blocksInTurn_other (h : ∀ e ∈ es, e.1.region ≠ region) :
    blocksInTurn id (some (region, ls)) es
      = blockLines id region ls ++ blocksInTurn id none es := by
  cases es with
  | nil => exact (List.append_nil _).symm
  | cons e es =>
      obtain ⟨c, v⟩ := e
      have hc : c.region ≠ region := h _ List.mem_cons_self
      simp only [blocksInTurn, if_neg hc]

/-- Cells that stand together by regions are written in one block for each
region. -/
theorem blocksInTurn_regions {regions : List Region} (h : regions.Nodup)
    (es : List (Cell × Value)) :
    blocksInTurn id none (regions.flatMap fun region => cellsIn region es)
      = regions.flatMap fun region =>
        blockLines id region
          ((cellsIn region es).map fun e => cellLine e.1 e.2) := by
  induction regions with
  | nil => rfl
  | cons region regions ih =>
      obtain ⟨hout, hrest⟩ := List.nodup_cons.1 h
      have hlater : ∀ e ∈ regions.flatMap fun r => cellsIn r es,
          e.1.region ≠ region := by
        intro e he heq
        obtain ⟨r, hr, he⟩ := List.mem_flatMap.1 he
        obtain ⟨-, hregion⟩ := mem_cellsIn.1 he
        rw [← heq, hregion] at hout
        exact hout hr
      have hhere : ∀ e ∈ cellsIn region es, e.1.region = region :=
        fun e he => (mem_cellsIn.1 he).2
      rw [List.flatMap_cons, List.flatMap_cons]
      generalize cellsIn region es = here at hhere
      cases here with
      | nil => exact ih hrest
      | cons e here =>
          obtain ⟨c, v⟩ := e
          obtain ⟨hc, hhere⟩ := List.forall_mem_cons.1 hhere
          rw [List.cons_append, blocksInTurn, hc, blocksInTurn_same hhere,
            blocksInTurn_other hlater, ih hrest]
          rfl

end Pass

/-- One pass over the sorted cells makes the blocks of the regions, each of
them once. -/
theorem blocksInTurn_eq (id : Text) {es : List (Cell × Value)}
    (h : (es.map Prod.fst).Nodup) :
    blocksInTurn id none (cellsByText es) = cellBlocks id es := by
  have hnodup : regionsByName.Nodup := by decide
  have hturn : blocksInTurn id none
      (regionsByName.flatMap fun r => cellsIn r (cellsByText es))
      = _ := blocksInTurn_regions hnodup _
  rw [flatMap_cellsIn (increasing_cellsByText h)] at hturn
  exact hturn

-- ============================================================== contents

/-- Two maps whose values have the same literals are written alike. -/
theorem regionLines_congr {m n : SortedMap Cell Value}
    (h : ∀ c, (m.get? c).map Value.literal = (n.get? c).map Value.literal)
    (region : Region) :
    regionLines m.entries region = regionLines n.entries region := by
  -- the sorted cells with their literals are the same
  let literals (es : List (Cell × Value)) : List (Cell × Text) :=
    (cellsByText es).map fun e => (e.1, e.2.literal)
  have hincreasing : ∀ m : SortedMap Cell Value,
      Increasing (literals m.entries) := fun m =>
    List.pairwise_map.2 (increasing_cellsByText m.nodup_keys)
  have hmem : ∀ (m : SortedMap Cell Value) (e : Cell × Text),
      e ∈ literals m.entries ↔ (m.get? e.1).map Value.literal = some e.2 := by
    intro m e
    rw [Option.map_eq_some_iff, List.mem_map]
    constructor
    · rintro ⟨⟨c, v⟩, he, rfl⟩
      exact ⟨v, SortedMap.get?_eq_some_iff.2 (mem_cellsByText.1 he), rfl⟩
    · rintro ⟨v, hv, hliteral⟩
      exact ⟨(e.1, v),
        mem_cellsByText.2 (SortedMap.get?_eq_some_iff.1 hv), by rw [hliteral]⟩
  have hsame : literals m.entries = literals n.entries :=
    (hincreasing m).eq_of_mem_iff (hincreasing n) fun e => by
      rw [hmem, hmem, h]
  have hlines : ∀ es : List (Cell × Value), regionLines es region
      = (cellsIn region (literals es)).map fun e => e.1.ident ++ " = ".toList
        ++ e.2 := by
    intro es
    rw [regionLines_eq]
    unfold cellsIn
    rw [List.filter_map, List.map_map]
    rfl
  rw [hlines, hlines, hsame]

/-- The lines assign the value of each cell that has one, and nothing else:
behind one binding of the table there is a block for each region with such
cells, the regions in the order of their names, and in a block each of its
cells once, in the order of their texts. If no cell has a value there are
no lines. -/
def AssignsOnce (id : Text) (value? : Cell → Option Value)
    (lines : List Text) : Prop :=
  ∃ cells : Region → List (Cell × Value),
    (∀ region c v, (c, v) ∈ cells region
      ↔ c.region = region ∧ value? c = some v)
      ∧ (∀ region, ((cells region).map fun e => e.1.ident).Nodup)
      ∧ Increasing (regionsByName.flatMap cells)
      ∧ ((∀ c, value? c = none) → lines = [])
      ∧ ((∃ c, value? c ≠ none) →
        lines = bindingLine id ::
          (regionsByName.filter fun region => !(cells region).isEmpty).flatMap
            fun region =>
              headerLine id region :: (cells region).map fun e => Script.indent
                ++ cellLine e.1 e.2)

/-- Regions without cells have no block. -/
theorem flatMap_blockLines (id : Text) (cells : Region → List (Cell × Value))
    (regions : List Region) :
    (regions.flatMap fun region =>
        blockLines id region ((cells region).map fun e => cellLine e.1 e.2))
      = (regions.filter fun region => !(cells region).isEmpty).flatMap
        fun region =>
          headerLine id region
            :: (cells region).map fun e => Script.indent
              ++ cellLine e.1 e.2 := by
  induction regions with
  | nil => rfl
  | cons region regions ih =>
      rw [List.flatMap_cons, ih]
      cases hcells : cells region with
      | nil =>
          rw [List.filter_cons_of_neg (by rw [hcells]; decide)]
          rfl
      | cons e es =>
          rw [List.filter_cons_of_pos (by rw [hcells]; rfl),
            List.flatMap_cons, hcells]
          unfold blockLines
          rw [List.map_map]
          rfl

/-- The lines of a cell edit assign each of its cells once. -/
theorem assignsOnce_render (id : Text) (m : SortedMap Cell Value) :
    AssignsOnce id m.get? (render (.setCells id m)) := by
  have hincreasing : Increasing (cellsByText m.entries) :=
    increasing_cellsByText m.nodup_keys
  have hblocks :=
    flatMap_blockLines id
      (fun region => cellsIn region (cellsByText m.entries))
    regionsByName
  have hrender : render (.setCells id m)
      = bound id (cellBlocks id m.entries) := rfl
  have hmem : ∀ region c v, (c, v) ∈ cellsIn region (cellsByText m.entries)
      ↔ c.region = region ∧ m.get? c = some v := by
    intro region c v
    rw [mem_cellsIn, mem_cellsByText, SortedMap.get?_eq_some_iff, and_comm]
  refine ⟨fun region => cellsIn region (cellsByText m.entries), hmem, ?_,
    ?_, ?_, ?_⟩
  -- no name is assigned twice within a region
  · intro region
    refine List.pairwise_map.2
      ((List.Pairwise.filter _ hincreasing).imp_of_mem ?_)
    intro a b ha hb hlt hident
    have hregion : a.1.region = b.1.region :=
      (mem_cellsIn.1 ha).2.trans (mem_cellsIn.1 hb).2.symm
    rw [Cell.ident_injective hregion hident, Std.ReflOrd.compare_self] at hlt
    cases hlt
  · rw [flatMap_cellsIn hincreasing]
    exact hincreasing
  -- without a value there is not even a binding
  · intro hnone
    have hempty : ∀ region, cellsIn region (cellsByText m.entries) = [] := by
      intro region
      refine List.eq_nil_iff_forall_not_mem.2 fun e he => ?_
      obtain ⟨-, hsome⟩ := (hmem region e.1 e.2).1 he
      rw [hnone] at hsome
      cases hsome
    rw [hrender, cellBlocks_eq]
    simp only [regionLines_eq, hempty]
    rfl
  -- a value has a line, so its region has a header
  · rintro ⟨c, hc⟩
    obtain ⟨v, hv⟩ := Option.ne_none_iff_exists'.1 hc
    have hfilled : !(cellsIn c.region (cellsByText m.entries)).isEmpty := by
      rw [Bool.not_eq_true', List.isEmpty_eq_false_iff_exists_mem]
      exact ⟨(c, v), (hmem _ c v).2 ⟨rfl, hv⟩⟩
    have hheader : headerLine id c.region ∈ cellBlocks id m.entries := by
      rw [cellBlocks_eq]
      refine hblocks ▸ List.mem_flatMap.2 ⟨c.region, ?_, List.mem_cons_self⟩
      exact List.mem_filter.2 ⟨mem_regionsByName _, hfilled⟩
    rw [hrender, bound, if_neg, cellBlocks_eq]
    · exact congrArg _ hblocks
    · rw [Bool.not_eq_true, List.isEmpty_eq_false_iff_exists_mem]
      exact ⟨_, hheader⟩

-- ============================================================= merging

/-- The value that edits write to a cell last. -/
def lastWritten? (edits : List (SortedMap Cell Value)) (c : Cell) :
    Option Value :=
  (edits.filterMap fun m => m.get? c).getLast?

/-- The cells of edits, merged into the first. -/
def mergedCells (first : SortedMap Cell Value)
    (rest : List (SortedMap Cell Value)) :
    SortedMap Cell Value :=
  rest.foldl
    (fun m later => later.entries.foldl (fun m (c, v) => m.insert c v) m) first

/-- What is merged holds the values that were written last. -/
theorem get?_mergedCells (first : SortedMap Cell Value)
    (rest : List (SortedMap Cell Value)) (c : Cell) :
    (mergedCells first rest).get? c = lastWritten? (first :: rest) c := by
  induction rest generalizing first with
  | nil =>
      unfold lastWritten?
      rw [List.filterMap_cons]
      show first.get? c = _
      cases first.get? c <;> rfl
  | cons later rest ih =>
      have hboth :
          (later.entries.foldl (fun m (c, v) => m.insert c v) first).get? c
          = (later.get? c).or (first.get? c) := by
        rw [SortedMap.get?_foldl_insert, SortedMap.lastEntry_entries]
      rw [mergedCells, List.foldl_cons]
      refine (ih _).trans ?_
      unfold lastWritten?
      rw [List.filterMap_cons, List.filterMap_cons, List.filterMap_cons, hboth]
      cases later.get? c with
      | none => rfl
      | some v => cases first.get? c <;> rfl

end Command

namespace Log

/-- The transaction of commands that are typed into cells, recorded behind
others and committed. -/
def cellEdit (before : List Transaction) (cs : List Command) :
    Except LogError (Transaction × Log) := do
  let begun ← begin ⟨before, none⟩ .cellEdit
  let recorded ← cs.foldlM record begun
  recorded.commit

/-- One edit after the other is merged into the first. -/
theorem record_edits (before : List Transaction) (id : Text)
    (first : SortedMap Cell Value) (rest : List (SortedMap Cell Value)) :
    (rest.map (Command.setCells id)).foldlM record
        ⟨before, some ⟨.cellEdit, [.setCells id first]⟩⟩
      = .ok
        ⟨before,
          some
            ⟨.cellEdit, [.setCells id (Command.mergedCells first rest)]⟩⟩ := by
  induction rest generalizing first with
  | nil => rfl
  | cons later rest ih =>
      have hrecord : record ⟨before, some ⟨.cellEdit, [.setCells id first]⟩⟩
          (.setCells id later)
          = .ok ⟨before, some ⟨.cellEdit,
            [.setCells id
              (later.entries.foldl
                (fun m (c, v) => m.insert c v) first)]⟩⟩ := by
        simp only [record, Transaction.record, Transaction.mergeLast,
          Command.merge?, if_true]
      rw [List.map_cons, List.foldlM_cons, hrecord]
      exact ih _

theorem cellEdit_eq (before : List Transaction) (id : Text)
    (first : SortedMap Cell Value) (rest : List (SortedMap Cell Value)) :
    cellEdit before ((first :: rest).map (Command.setCells id))
      = .ok (⟨.cellEdit, [.setCells id (Command.mergedCells first rest)]⟩,
          ⟨before
            ++ [⟨.cellEdit, [.setCells id (Command.mergedCells first rest)]⟩],
              none⟩) := by
  have hfirst : record ⟨before, some ⟨.cellEdit, []⟩⟩ (.setCells id first)
      = .ok ⟨before, some ⟨.cellEdit, [.setCells id first]⟩⟩ := rfl
  show (((first :: rest).map (Command.setCells id)).foldlM record
    ⟨before, some ⟨.cellEdit, []⟩⟩ >>= commit) = _
  rw [List.map_cons, List.foldlM_cons, hfirst]
  show ((rest.map (Command.setCells id)).foldlM record _ >>= commit) = _
  rw [record_edits]
  rfl

end Log

-- ======================================================== the theorem

open Command
  (AssignsOnce blocksInTurn bound cellsByText lastWritten? mergedCells)

/-- What is typed into the cells of a table in one transaction, in however
many edits, is one command, and its lines tell the last values alone, each
cell's once; values with one literal count as the same. The lines are those
of one pass over the cells, in whatever order these were before they were
sorted. -/
theorem cellEdit_tells_contents (before before' : List Transaction) (id : Text)
    (edits edits' : List (SortedMap Cell Value)) (hne : edits ≠ [])
    (hne' : edits' ≠ []) (hsame : ∀ c, (lastWritten? edits c).map Value.literal
      = (lastWritten? edits' c).map Value.literal) :
    ∃ t t', Log.cellEdit before (edits.map (.setCells id))
      = .ok (t, ⟨before ++ [t], none⟩)
      ∧ Log.cellEdit before' (edits'.map (.setCells id))
        = .ok (t', ⟨before' ++ [t'], none⟩)
      ∧ t.commands.length = 1 ∧ t'.commands.length = 1
      ∧ t.lines = t'.lines
      ∧ AssignsOnce id (lastWritten? edits) t.lines
      ∧ ∀ cells : List (Cell × Value), (cells.map Prod.fst).Nodup →
        (∀ c v, (c, v) ∈ cells ↔ lastWritten? edits c = some v) →
        t.lines = bound id (blocksInTurn id none (cellsByText cells)) := by
  obtain ⟨first, rest, rfl⟩ := List.exists_cons_of_ne_nil hne
  obtain ⟨first', rest', rfl⟩ := List.exists_cons_of_ne_nil hne'
  have hget : ∀ c,
      (mergedCells first rest).get? c = lastWritten? (first :: rest) c :=
    Command.get?_mergedCells first rest
  have hlines : ∀ m, Transaction.lines ⟨.cellEdit, [.setCells id m]⟩
      = bound id (Command.cellBlocks id m.entries) :=
        fun m => List.append_nil _
  refine ⟨_, _, Log.cellEdit_eq before id first rest,
    Log.cellEdit_eq before' id first' rest', rfl, rfl, ?_, ?_, ?_⟩
  · have hliterals : ∀ c, ((mergedCells first rest).get? c).map Value.literal
        = ((mergedCells first' rest').get? c).map Value.literal := by
      intro c
      rw [hget, Command.get?_mergedCells]
      exact hsame c
    rw [hlines, hlines, Command.cellBlocks_eq, Command.cellBlocks_eq]
    simp only [Command.regionLines_congr hliterals]
  · rw [hlines, ← funext hget]
    exact Command.assignsOnce_render id (mergedCells first rest)
  · intro cells hnodup hcells
    have hsorted : cellsByText cells
        = cellsByText (mergedCells first rest).entries := by
      refine (Command.increasing_cellsByText hnodup).eq_of_mem_iff
        (Command.increasing_cellsByText (mergedCells first rest).nodup_keys)
          fun e => ?_
      rw [Command.mem_cellsByText,
        Command.mem_cellsByText, ← SortedMap.get?_eq_some_iff, hget]
      exact hcells e.1 e.2
    rw [hlines, hsorted,
      Command.blocksInTurn_eq id (mergedCells first rest).nodup_keys]

/-- Three edits, one of them empty, that overwrite a truth value by zero. -/
def typed : List (SortedMap Cell Value) :=
  [.ofList [(⟨.body, 0, 1⟩, .boolean true)], .empty,
   .ofList [(⟨.topLabels, 0, 0⟩, .text "it's".toList),
     (⟨.body, 0, 1⟩, .number Double.zero)]]

/-- One edit with the other zero. -/
def pasted : List (SortedMap Cell Value) :=
  [.ofList [(⟨.body, 0, 1⟩, .number Double.zero.neg),
    (⟨.topLabels, 0, 0⟩, .text "it's".toList)]]

theorem cellEdit_tells_contents_typed :
    typed ≠ [] ∧ pasted ≠ []
      ∧ (∀ c, (lastWritten? typed c).map Value.literal
        = (lastWritten? pasted c).map Value.literal)
      ∧ ∃ t t', Log.cellEdit [] (typed.map (.setCells "t".toList))
        = .ok (t, ⟨[t], none⟩)
        ∧ Log.cellEdit [] (pasted.map (.setCells "t".toList))
          = .ok (t', ⟨[t'], none⟩)
        ∧ t.commands.length = 1 ∧ t'.commands.length = 1
        ∧ t.lines = t'.lines := by
  have hsame : ∀ c, (lastWritten? typed c).map Value.literal
      = (lastWritten? pasted c).map Value.literal := by
    intro c
    by_cases hbody : (⟨.body, 0, 1⟩ : Cell) = c
    · subst hbody
      decide
    · by_cases hlabel : (⟨.topLabels, 0, 0⟩ : Cell) = c
      · subst hlabel
        decide
      · simp [lastWritten?, typed, pasted, SortedMap.ofList,
          SortedMap.get?_insert_eq, SortedMap.get?_empty, hbody, hlabel]
  have hne : typed ≠ [] := List.cons_ne_nil _ _
  have hne' : pasted ≠ [] := List.cons_ne_nil _ _
  obtain ⟨t, t', ht, ht', hone, hone', hlines, -⟩ :=
    cellEdit_tells_contents [] [] "t".toList typed pasted hne hne' hsame
  exact ⟨hne, hne', hsame, t, t', ht, ht', hone, hone', hlines⟩

end GridScript
