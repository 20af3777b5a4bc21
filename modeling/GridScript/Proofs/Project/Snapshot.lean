/-
A snapshot is read as the project that it was made of. What can be reported
is said by `Project.Reported`: every table that is known is listed and every
one that is listed is known, its sheet is the last one that lists it, and
what it holds can be written as JSON. Numbers of the machine are the words
that their readers take (`Project.InWords`).

# The argument

Everything is written by one function and read by another, and the two are
put against each other part by part: rectangles, bands and sizes, cells,
formulas, types, tables, sheets. A table that is listed more than once is
written as often and read into each sheet that lists it, and the last of
these readings is the table.
-/
import GridScript.Project.Snapshot
import GridScript.Proofs.Grid.Address
import GridScript.Proofs.Project.Rekeyed
import GridScript.Proofs.Value.Json

namespace GridScript

open Number (wordBound)

-- ======================================================= what is reported

/-- The doubles of a rectangle. -/
def Rect.doubles (r : Rect) : List Double := [r.x, r.y, r.width, r.height]

namespace Table

/-- The doubles in a table. -/
def doubles (t : Table) : List Double :=
  t.rect.doubles ++ t.cells.entries.flatMap fun e => e.2.doubles

/-- What a table holds can be written. -/
structure Reported (t : Table) : Prop where
  finite : ∀ x ∈ t.doubles, x.isFinite = true
  filled : ∀ e ∈ t.cells.entries, e.2.isEmpty = false
  inDay : ∀ e ∈ t.cells.entries, e.2.InDay
  cols : ∀ e ∈ t.cells.entries, e.1.col + 1 < wordBound
  underived : t.summary = none

/-- The numbers of the machine in a table are words. -/
structure InWords (t : Table) : Prop where
  size : t.rows < wordBound ∧ t.cols < wordBound
  bands : t.bands.top < wordBound ∧ t.bands.left < wordBound
    ∧ t.bands.bottom < wordBound
    ∧ t.bands.right < wordBound
  rows : ∀ e ∈ t.cells.entries, e.1.row < wordBound
  typed : ∀ e ∈ t.columnTypes.entries, e.1 < wordBound

end Table

namespace Project

/-- The doubles in the tables of a project. -/
def doubles (p : Project) : List Double :=
  p.tables.entries.flatMap fun e => e.2.doubles

/-- The sheet that a table is read into at last. -/
def lastListing? (p : Project) (id : Text) : Option Text :=
  ((p.sheets.filter fun s => s.tableIds.contains id).getLast?).map Sheet.id

/-- A project as a run can report it. -/
structure Reported (p : Project) : Prop where
  known : ∀ s ∈ p.sheets, ∀ id ∈ s.tableIds, ∃ t, p.table? id = some t
  keyed : ∀ id t, p.table? id = some t → t.id = id
  listed : ∀ id t, p.table? id = some t → p.lastListing? id = some t.sheetId
  tables : ∀ id t, p.table? id = some t → t.Reported

/-- The numbers of the machine in a project are words. -/
def InWords (p : Project) : Prop := ∀ id t, p.table? id = some t → t.InWords

end Project

-- ================================================================ layout

theorem Json.asWord?_ofNat {n : Nat} (h : n < wordBound) :
    Json.asWord? (.ofNat n) = some n :=
  Number.wordOfDigits?_decimal h

theorem Rect.ofJson?_toJson {r : Rect} (h : ∀ x ∈ r.doubles, x.Reread) :
    Rect.ofJson? r.toJson = some r := by
  have hfields : Json.fields? (["x", "y", "width", "height"].map String.toList)
      false r.toJson
      = some [some (.ofDouble r.x), some (.ofDouble r.y),
          some (.ofDouble r.width), some (.ofDouble r.height)] := rfl
  have hread : ∀ x ∈ r.doubles,
      Json.required? Json.asDouble? (some (.ofDouble x)) = some x := h
  simp only [doubles, List.forall_mem_cons] at hread
  obtain ⟨hx, hy, hwidth, hheight, -⟩ := hread
  unfold ofJson?
  simp only [hfields, Option.bind_eq_bind, Option.bind_some, hx, hy, hwidth,
    hheight]
  rfl

theorem LabelBands.ofJson?_toJson {b : LabelBands}
    (h : b.top < wordBound ∧ b.left < wordBound
      ∧ b.bottom < wordBound ∧ b.right < wordBound) :
    LabelBands.ofJson? b.toJson = some b := by
  have hfields : Json.fields?
      (["topRows", "bottomRows", "leftCols", "rightCols"].map String.toList)
      false b.toJson
      = some
          [some (.ofNat b.top), some (.ofNat b.bottom), some (.ofNat b.left),
            some (.ofNat b.right)] := rfl
  have hread : ∀ n, n < wordBound →
      Json.required? Json.asWord? (some (.ofNat n)) = some n :=
    fun _ => Json.asWord?_ofNat
  unfold ofJson?
  simp only [hfields, Option.bind_eq_bind, Option.bind_some, hread _ h.1,
    hread _ h.2.1, hread _ h.2.2.1, hread _ h.2.2.2]
  rfl

namespace Snapshot

variable {t : Table}

theorem readGrid?_gridJson (h : t.InWords) :
    readGrid? (gridJson t) = some ⟨t.rows, t.cols, t.bands⟩ := by
  have hfields : Json.fields?
      (["bodyRows", "bodyCols", "labelBands"].map String.toList) false
      (gridJson t)
        = some [some (.ofNat t.rows), some (.ofNat t.cols),
          some t.bands.toJson] := rfl
  have hread : ∀ n, n < wordBound →
      Json.required? Json.asWord? (some (.ofNat n)) = some n :=
    fun _ => Json.asWord?_ofNat
  unfold readGrid?
  simp only [hfields, Option.bind_eq_bind, Option.bind_some, hread _ h.size.1,
    hread _ h.size.2, Json.defaulted?, LabelBands.ofJson?_toJson h.bands]
  rfl

-- ================================================================= cells

theorem fits_of_mem_cells (h : t.Reported) (hwords : t.InWords)
    {e : Cell × Value} (he : e ∈ t.cells.entries) : Fits e.1.row e.1.col :=
  ⟨hwords.rows e he, h.cols e he⟩

/-- Cells are written in the order of their texts. -/
theorem cellsJson_eq (t : Table) :
    cellsJson t = .object ((SortedMap.ofList (t.cells.entries.map fun e =>
      (e.1.text, e.2))).entries.map fun e => (e.1, e.2.toJson)) := by
  rw [← SortedMap.entries_ofList_map, List.map_map]
  rfl

theorem mem_of_mem_rekeyed {κ ν : Type} {f : κ → Text} {es : List (κ × ν)}
    {m : Text × ν}
    (h : m ∈ (SortedMap.ofList (es.map fun e => (f e.1, e.2))).entries) :
    ∃ e ∈ es, m = (f e.1, e.2) := by
  rw [← SortedMap.get?_eq_some_iff] at h
  obtain ⟨e, he, heq⟩ := List.mem_map.1 (SortedMap.mem_of_get?_ofList h)
  exact ⟨e, he, heq.symm⟩

theorem doubles_subset {e : Cell × Value} (he : e ∈ t.cells.entries) :
    e.2.doubles ⊆ t.doubles :=
  fun _ hx => List.mem_append_right _ (List.mem_flatMap.2 ⟨e, he, hx⟩)

/-- The cells are found again under the texts of their addresses. -/
theorem cells_read (h : t.Reported) (hwords : t.InWords)
    (hdoubles : ∀ x ∈ t.doubles, x.Reread) :
    ∃ values, readValues? (cellsJson t) = some values
      ∧ cellsOf values = t.cells := by
  have hvalues :
      ∀ m ∈ (SortedMap.ofList
          (t.cells.entries.map fun e => (e.1.text, e.2))).entries,
        Value.ofJson? valueDepth m.2.toJson = some m.2 := by
    intro m hm
    obtain ⟨e, he, rfl⟩ := mem_of_mem_rekeyed hm
    exact Value.ofJson?_toJson (by decide)
      (fun x hx => hdoubles x (doubles_subset he hx))
      (h.inDay e he)
  refine ⟨_, ?_, SortedMap.ofList_rekeyed (f := Cell.text) ?_ ?_⟩
  · unfold readValues?
    rw [cellsJson_eq, Json.asMembers?_map hvalues, Option.map_some,
      SortedMap.ofList_entries]
  -- cells of one text are one cell
  · intro a ha b hb htext
    have hparse := Cell.parse_text (fits_of_mem_cells h hwords ha)
    rw [htext, Cell.parse_text (fits_of_mem_cells h hwords hb)] at hparse
    exact (Except.ok.inj hparse).symm
  · intro e he
    simp only [Cell.parse_text (fits_of_mem_cells h hwords he), h.filled e he,
      Bool.false_eq_true, if_false]

-- ============================================================== formulas

theorem formulas_read (t : Table) :
    readFormulas? (formulasJson t) = some t.formulas := by
  have hmembers := @Json.asMembers?_map _ readFormula?
    (fun formula => .record
      [("formula", .text formula), ("mode", .text "spreadsheet".toList)])
    t.formulas.entries fun _ _ => rfl
  exact (congrArg (Option.map SortedMap.ofList) hmembers).trans
    (congrArg some (SortedMap.ofList_entries _))

-- ========================================================== column types

theorem readWord?_decimal {n : Nat} (h : n < wordBound) :
    Number.readWord? (Text.trim (Number.decimal n)) = some n := by
  obtain ⟨c, rest, hdigits⟩ :=
    List.exists_cons_of_ne_nil (Number.decimal_ne_nil n)
  have hc : c.isDigit = true :=
    Number.isDigit_of_mem_decimal (n := n) (hdigits ▸ List.mem_cons_self)
  rw [((Number.solid_decimal n).framed
    (Number.decimal_ne_nil n)).trim, ← Number.wordOfDigits?_decimal h, hdigits]
  unfold Number.readWord?
  split
  next heq =>
      injection heq with heq
      rw [heq] at hc
      cases hc
  next => rfl

theorem columnTypesJson_eq (t : Table) :
    columnTypesJson t
      = .object ((SortedMap.ofList (t.columnTypes.entries.map fun e =>
          (Number.decimal e.1, e.2))).entries.map fun e =>
            (e.1, .text e.2)) := by
  rw [← SortedMap.entries_ofList_map, List.map_map]
  rfl

/-- An object of texts may be looked at twice. -/
theorem isKept_texts (outer : Nat) (houter : outer < Json.depthLimit)
    (ms : List (Text × Text)) :
    (Json.object (ms.map fun m => (m.1, .text m.2))).isKept outer = true := by
  have hparts : Json.membersReadable (ms.map fun m => (m.1, .text m.2)) = true
      ∧ Json.depthOfMembers (ms.map fun m => (m.1, .text m.2)) = 0 := by
    induction ms with
    | nil => exact ⟨rfl, rfl⟩
    | cons m ms ih =>
        refine ⟨ih.1, ?_⟩
        rw [List.map_cons, Json.depthOfMembers, ih.2]
        rfl
  unfold Json.isKept
  rw [Json.isReadable, hparts.1, Json.depth, hparts.2, Bool.true_and,
    decide_eq_true_eq]
  omega

theorem columnTypes_read (h : t.InWords) :
    readColumnTypes? (columnTypesJson t) = some t.columnTypes := by
  have hkept := isKept_texts columnTypesDepth (by decide)
    (SortedMap.ofList
      (t.columnTypes.entries.map fun e => (Number.decimal e.1, e.2))).entries
  have hmembers : ∀ ms : List (Text × Text),
      Json.asMembers? Json.asText? (.object (ms.map fun m => (m.1, .text m.2)))
        = some ms :=
    fun ms => Json.asMembers?_map fun _ _ => rfl
  rw [columnTypesJson_eq]
  unfold readColumnTypes?
  simp only [hkept, Bool.not_true, Bool.false_eq_true, if_false, hmembers,
    Option.map_some, SortedMap.ofList_entries]
  refine congrArg some (SortedMap.ofList_rekeyed (f := Number.decimal) ?_ ?_)
  · exact fun a _ b _ hkey => Number.decimal_injective hkey
  · intro e he
    simp only [readWord?_decimal (h.typed e he), Option.map_some]

-- ================================================================ tables

theorem readTable?_tableJson (sheetId : Text) (h : t.Reported)
    (hwords : t.InWords) (hdoubles : ∀ x ∈ t.doubles, x.Reread) :
    readTable? sheetId (tableJson t) = some { t with sheetId := sheetId } := by
  obtain ⟨values, hvalues, hcells⟩ := cells_read h hwords hdoubles
  have hrect : Rect.ofJson? t.rect.toJson = some t.rect :=
    Rect.ofJson?_toJson fun x hx => hdoubles x (List.mem_append_left _ hx)
  have htypes : ∃ types, Json.fields? tableMembers false (tableJson t)
        = some [some (.text t.id), some (.text t.name), some t.rect.toJson,
            some (gridJson t), some (cellsJson t),
            some (formulasJson t), types]
      ∧ (Json.defaulted? none (Json.asOptional? readColumnTypes?) types).map
        (·.getD .empty)
        = some t.columnTypes := by
    unfold tableJson
    cases hempty : t.columnTypes.isEmpty with
    | true =>
        -- an empty map is left out, and is read as none
        refine ⟨none, rfl, ?_⟩
        have hnone : t.columnTypes = .empty :=
          SortedMap.ext_entries (List.isEmpty_iff.1 hempty)
        rw [hnone]
        rfl
    | false =>
        refine ⟨some (columnTypesJson t), rfl, ?_⟩
        have hread : Json.asOptional? readColumnTypes? (columnTypesJson t)
            = (readColumnTypes? (columnTypesJson t)).map some := rfl
        rw [Json.defaulted?, hread, columnTypes_read hwords]
        rfl
  obtain ⟨types, hfields, htypes⟩ := htypes
  obtain ⟨found, hfound, htypes⟩ := Option.map_eq_some_iff.1 htypes
  unfold readTable?
  simp only [hfields, Option.bind_eq_bind, Option.bind_some, Json.required?,
    Json.defaulted?, Json.asText?, hrect, readGrid?_gridJson hwords, hvalues,
    formulas_read]
  unfold Json.defaulted? at hfound
  rw [hfound, Option.bind_some, hcells, htypes, h.underived]
  rfl

-- ================================================================ sheets

/-- The tables of a sheet under their identifiers. -/
def entriesOf (s : Sheet × List Table) : List (Text × Table) :=
  s.2.map fun t => (t.id, t)

theorem mem_tableIds {s : Sheet × List Table}
    (h : s.1.tableIds = s.2.map Table.id) {id : Text} :
    id ∈ s.1.tableIds ↔ ∃ e ∈ entriesOf s, e.1 = id := by
  rw [h]
  simp [entriesOf]

/-- A table is the one that was read in the last sheet that lists it. -/
theorem table?_ofSheets {sheets : List (Sheet × List Table)}
    (h : ∀ s ∈ sheets, s.1.tableIds = s.2.map Table.id) (id : Text) :
    (Project.ofSheets sheets).table? id
      = (sheets.filter fun s => s.1.tableIds.contains id).getLast?.bind
        fun s => lastEntry id none (entriesOf s) := by
  have hkeys : ∀ s ∈ sheets, s.1.tableIds.contains id = true
      ↔ ∃ e ∈ entriesOf s, e.1 = id := by
    intro s hs
    rw [List.contains_iff_mem, mem_tableIds (h s hs)]
  show (SortedMap.ofList (sheets.flatMap entriesOf)).get? id = _
  rw [SortedMap.get?_ofList, lastEntry_flatMap hkeys, Option.or_none]

section

variable {p : Project}

/-- The tables that are read into a sheet. -/
def tablesOn (p : Project) (s : Sheet) : List Table :=
  (s.tableIds.filterMap p.table?).map fun t => { t with sheetId := s.id }

theorem mem_doubles_of_table {id : Text} (ht : p.table? id = some t) :
    t.doubles ⊆ p.doubles :=
  fun _ hx => List.mem_flatMap.2 ⟨(id, t), SortedMap.get?_eq_some_iff.1 ht, hx⟩

theorem ids_tablesOn (h : p.Reported) {s : Sheet} (hs : s ∈ p.sheets) :
    (tablesOn p s).map Table.id = s.tableIds := by
  have hids : ∀ ids ⊆ s.tableIds,
      (ids.filterMap p.table?).map Table.id = ids := by
    intro ids hids
    induction ids with
    | nil => rfl
    | cons id ids ih =>
        obtain ⟨hid, hrest⟩ := List.cons_subset.1 hids
        obtain ⟨t, ht⟩ := h.known s hs id hid
        rw [List.filterMap_cons_some ht, List.map_cons, ih hrest,
          h.keyed id t ht]
  unfold tablesOn
  rw [List.map_map]
  exact hids s.tableIds (List.Subset.refl _)

theorem readSheet?_sheetJson (h : p.Reported) (hwords : p.InWords)
    (hdoubles : ∀ x ∈ p.doubles, x.Reread) {s : Sheet} (hs : s ∈ p.sheets) :
    readSheet? (sheetJson p s) = some (s, tablesOn p s) := by
  have hfields : Json.fields? (["id", "name", "tables"].map String.toList)
      false (sheetJson p s)
      = some [some (.text s.id), some (.text s.name),
          some (.array ((s.tableIds.filterMap p.table?).map tableJson))] := rfl
  have htables : Json.asList? (readTable? s.id)
      (.array ((s.tableIds.filterMap p.table?).map tableJson))
        = some (tablesOn p s) := by
    refine Json.asList?_map fun t ht => ?_
    obtain ⟨id, -, ht⟩ := List.mem_filterMap.1 ht
    exact readTable?_tableJson s.id (h.tables id t ht)
      (hwords id t ht) fun x hx =>
      hdoubles x (mem_doubles_of_table ht hx)
  unfold readSheet?
  simp only [hfields, Option.bind_eq_bind, Option.bind_some, Json.required?,
    Json.asText?, Json.defaulted?, htables, ids_tablesOn h hs]
  rfl

/-- In a sheet that lists a table it is read with that sheet. -/
theorem lastEntry_tablesOn (h : p.Reported) {s : Sheet} (hs : s ∈ p.sheets)
    {id : Text} (hid : id ∈ s.tableIds) {t : Table}
    (ht : p.table? id = some t) :
    lastEntry id none (entriesOf (s, tablesOn p s)) = some { t with
        sheetId := s.id } := by
  obtain ⟨v, hv⟩ := exists_lastEntry
    ((mem_tableIds (s := (s, tablesOn p s)) (ids_tablesOn h hs).symm).1 hid)
  obtain ⟨u, hu, heq⟩ := List.mem_map.1 (mem_of_lastEntry hv)
  cases heq
  obtain ⟨t', ht', rfl⟩ := List.mem_map.1 hu
  obtain ⟨id', -, hfound⟩ := List.mem_filterMap.1 ht'
  obtain rfl : t'.id = id' := h.keyed id' t' hfound
  obtain rfl : t' = t := Option.some.inj (hfound.symm.trans ht)
  exact hv

theorem ofSheets_tablesOn (h : p.Reported) :
    Project.ofSheets (p.sheets.map fun s => (s, tablesOn p s)) = p := by
  have hsheets : (Project.ofSheets
      (p.sheets.map fun s => (s, tablesOn p s))).sheets = p.sheets := by
    show (p.sheets.map fun s => (s, tablesOn p s)).map (·.1) = p.sheets
    rw [List.map_map]
    exact List.map_id p.sheets
  have hlisted : ∀ s ∈ p.sheets.map fun s => (s, tablesOn p s),
      s.1.tableIds = s.2.map Table.id := by
    intro s' hs'
    obtain ⟨s, hs, rfl⟩ := List.mem_map.1 hs'
    exact (ids_tablesOn h hs).symm
  have htables : (Project.ofSheets
      (p.sheets.map fun s => (s, tablesOn p s))).tables = p.tables := by
    apply SortedMap.ext_get?
    intro id
    show (Project.ofSheets _).table? id = p.table? id
    rw [table?_ofSheets hlisted, List.filter_map, List.getLast?_map,
      Option.bind_map]
    show ((p.sheets.filter fun s => s.tableIds.contains id).getLast?.bind
        fun s => lastEntry id none (entriesOf (s, tablesOn p s)))
      = p.table? id
    cases hlast : (p.sheets.filter fun s => s.tableIds.contains id).getLast?
      with
    | some s =>
        -- the last sheet that lists the table is its own
        obtain ⟨hs, hcontains⟩ :=
          List.mem_filter.1 (List.mem_of_getLast? hlast)
        have hid := List.contains_iff_mem.1 hcontains
        obtain ⟨t, ht⟩ := h.known s hs id hid
        have hsheet : some s.id = some t.sheetId := by
          rw [← h.listed id t ht, Project.lastListing?, hlast]
          rfl
        rw [Option.bind_some, lastEntry_tablesOn h hs hid ht, ht,
          Option.some.inj hsheet]
    | none =>
        cases ht : p.table? id with
        | none => rfl
        | some t =>
            have hlisted := h.listed id t ht
            rw [Project.lastListing?, hlast] at hlisted
            cases hlisted
  exact congr (congrArg Project.mk hsheets) htables

end

-- ============================================================ legibility

section

variable {p : Project}

theorem isLegible_record {members : List (String × Json)}
    (h : ∀ m ∈ members, m.2.isLegible = true) :
    (Json.record members).isLegible = true := by
  refine Json.isLegible_object fun m' hm' => ?_
  obtain ⟨m, hm, rfl⟩ := List.mem_map.1 hm'
  exact h m hm

theorem isLegible_rect {r : Rect} (h : ∀ x ∈ r.doubles, x.isFinite = true) :
    r.toJson.isLegible = true := by
  simp only [Rect.doubles, List.forall_mem_cons] at h
  obtain ⟨hx, hy, hwidth, hheight, -⟩ := h
  refine isLegible_record ?_
  simp only [List.forall_mem_cons]
  exact ⟨Json.isLegible_ofDouble hx, Json.isLegible_ofDouble hy,
    Json.isLegible_ofDouble hwidth, Json.isLegible_ofDouble hheight,
    List.forall_mem_nil _⟩

theorem isLegible_grid (t : Table) : (gridJson t).isLegible = true := by
  have hbands : t.bands.toJson.isLegible = true := by
    refine isLegible_record ?_
    simp only [List.forall_mem_cons]
    exact ⟨Json.isLegible_ofNat _, Json.isLegible_ofNat _,
      Json.isLegible_ofNat _, Json.isLegible_ofNat _, List.forall_mem_nil _⟩
  refine isLegible_record ?_
  simp only [List.forall_mem_cons]
  exact ⟨Json.isLegible_ofNat _, Json.isLegible_ofNat _, hbands,
    List.forall_mem_nil _⟩

theorem isLegible_cells (h : t.Reported) : (cellsJson t).isLegible = true := by
  rw [cellsJson_eq]
  refine Json.isLegible_object fun m' hm' => ?_
  obtain ⟨m, hm, rfl⟩ := List.mem_map.1 hm'
  obtain ⟨e, he, rfl⟩ := mem_of_mem_rekeyed hm
  exact Value.isLegible_toJson fun x hx => h.finite x (doubles_subset he hx)

theorem isLegible_table (h : t.Reported) : (tableJson t).isLegible = true := by
  have hrect :=
    isLegible_rect fun x hx => h.finite x (List.mem_append_left _ hx)
  have hformulas : (formulasJson t).isLegible = true := by
    refine Json.isLegible_object fun m' hm' => ?_
    obtain ⟨m, -, rfl⟩ := List.mem_map.1 hm'
    rfl
  have htypes : (columnTypesJson t).isLegible = true := by
    rw [columnTypesJson_eq]
    refine Json.isLegible_object fun m' hm' => ?_
    obtain ⟨m, -, rfl⟩ := List.mem_map.1 hm'
    rfl
  refine isLegible_record (List.forall_mem_append.2 ⟨?_, ?_⟩)
  · simp only [List.forall_mem_cons]
    exact ⟨rfl, rfl, hrect, isLegible_grid t, isLegible_cells h, hformulas,
      List.forall_mem_nil _⟩
  · split
    case isTrue => exact List.forall_mem_nil _
    case isFalse => exact List.forall_mem_singleton.2 htypes

theorem isLegible_sheet (h : p.Reported) (s : Sheet) :
    (sheetJson p s).isLegible = true := by
  have htables : (Json.array
      ((s.tableIds.filterMap p.table?).map tableJson)).isLegible = true := by
    refine Json.isLegible_array fun j hj => ?_
    obtain ⟨t, ht, rfl⟩ := List.mem_map.1 hj
    obtain ⟨id, -, ht⟩ := List.mem_filterMap.1 ht
    exact isLegible_table (h.tables id t ht)
  refine isLegible_record ?_
  simp only [List.forall_mem_cons]
  exact ⟨rfl, rfl, htables, List.forall_mem_nil _⟩

end

end Snapshot

-- ============================================================== projects

namespace Project

variable {p : Project}

theorem ofJson?_toJson (h : p.Reported) (hwords : p.InWords)
    (hdoubles : ∀ x ∈ p.doubles, x.Reread) : ofJson? p.toJson = some p := by
  have hfields : Json.fields? ["sheets".toList] false p.toJson
      = some [some (.array (p.sheets.map (Snapshot.sheetJson p)))] := rfl
  have hsheets : Json.asList? Snapshot.readSheet?
      (.array (p.sheets.map (Snapshot.sheetJson p)))
      = some (p.sheets.map fun s => (s, Snapshot.tablesOn p s)) :=
    Json.asList?_map fun s hs =>
      Snapshot.readSheet?_sheetJson h hwords hdoubles hs
  unfold ofJson?
  simp only [hfields, Option.bind_eq_bind, Option.bind_some, Json.defaulted?,
    hsheets]
  exact congrArg some (Snapshot.ofSheets_tablesOn h)

theorem isLegible_toJson (h : p.Reported) : p.toJson.isLegible = true := by
  have hsheets : (Json.array (p.sheets.map (Snapshot.sheetJson p))).isLegible
      = true := by
    refine Json.isLegible_array fun j hj => ?_
    obtain ⟨s, -, rfl⟩ := List.mem_map.1 hj
    exact Snapshot.isLegible_sheet h s
  refine Snapshot.isLegible_record ?_
  simp only [List.forall_mem_cons]
  exact ⟨hsheets, List.forall_mem_nil _⟩

/-- A project that can be reported is read back from its snapshot. -/
theorem parse?_text (h : p.Reported) (hwords : p.InWords)
    (hdoubles : ∀ x ∈ p.doubles, x.Reread) : parse? p.text = some p := by
  have hread := @Json.read?_pretty p.toJson (isLegible_toJson h) [] rfl
  rw [List.append_nil] at hread
  unfold parse? text
  rw [hread, Option.bind_some]
  exact ofJson?_toJson h hwords hdoubles

end Project

end GridScript
