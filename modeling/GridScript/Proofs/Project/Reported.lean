/-
What is read from a snapshot can be reported again. A table takes its sheet
from the one that it is read in, its cells from addresses that fit, and its
numbers from a reader that refuses what is not finite.
-/
import GridScript.Proofs.Json.Scaling
import GridScript.Proofs.Project.Snapshot

namespace GridScript

-- =============================================================== tables

theorem Rect.isFinite_of_ofJson? {j : Json} {r : Rect}
    (h : ofJson? j = some r) :
    ∀ x ∈ r.doubles, x.isFinite = true := by
  have hread : ∀ slot x, Json.required? Json.asDouble? slot = some x →
      x.isFinite = true := by
    intro slot x hx
    obtain ⟨j, hj⟩ := Json.exists_of_required? hx
    exact Json.isFinite_of_asDouble? hj
  unfold ofJson? at h
  obtain ⟨fields, -, h⟩ := Option.bind_eq_some_iff.1 h
  split at h
  next =>
      obtain ⟨x, hx, h⟩ := Option.bind_eq_some_iff.1 h
      obtain ⟨y, hy, h⟩ := Option.bind_eq_some_iff.1 h
      obtain ⟨width, hwidth, h⟩ := Option.bind_eq_some_iff.1 h
      obtain ⟨height, hheight, h⟩ := Option.bind_eq_some_iff.1 h
      cases h
      simp only [doubles, List.forall_mem_cons]
      exact ⟨hread _ _ hx, hread _ _ hy, hread _ _ hwidth, hread _ _ hheight,
        List.forall_mem_nil _⟩
  next => cases h

theorem Rect.isFinite_default :
    ∀ x ∈ (default : Rect).doubles, x.isFinite = true := by
  decide

namespace Snapshot

/-- A cell that is read has a value and an address that fits. -/
theorem mem_cellsOf {values : SortedMap Text Value} {e : Cell × Value}
    (h : e ∈ (cellsOf values).entries) :
    e.2.isEmpty = false ∧ Fits e.1.row e.1.col
      ∧ ∃ key, (key, e.2) ∈ values.entries := by
  have hmem := SortedMap.mem_of_get?_ofList (SortedMap.get?_eq_some_iff.2 h)
  obtain ⟨⟨key, v⟩, hvalue, hread⟩ := List.mem_filterMap.1 hmem
  simp only at hread
  split at hread
  next c hc =>
      split at hread
      next => cases hread
      next hfilled =>
          cases hread
          exact ⟨eq_false_of_ne_true hfilled, Cell.fits_of_parse hc,
            key, hvalue⟩
  next => cases hread

theorem sound_of_readValues? {j : Json} {values : SortedMap Text Value}
    (h : readValues? j = some values) {m : Text × Value}
    (hm : m ∈ values.entries) :
    m.2.Sound := by
  obtain ⟨ms, hms, rfl⟩ := Option.map_eq_some_iff.1 h
  have hmem := SortedMap.mem_of_get?_ofList (SortedMap.get?_eq_some_iff.2 hm)
  obtain ⟨content, hread⟩ := Json.exists_of_asMembers? hms hmem
  exact Value.sound_of_ofJson? hread

theorem reported_of_readTable? {sheetId : Text} {j : Json} {t : Table}
    (h : readTable? sheetId j = some t) :
    t.Reported ∧ t.sheetId = sheetId := by
  unfold readTable? at h
  obtain ⟨fields, -, h⟩ := Option.bind_eq_some_iff.1 h
  split at h
  next =>
      obtain ⟨id, -, h⟩ := Option.bind_eq_some_iff.1 h
      obtain ⟨name, -, h⟩ := Option.bind_eq_some_iff.1 h
      obtain ⟨rect, hrect, h⟩ := Option.bind_eq_some_iff.1 h
      obtain ⟨grid, -, h⟩ := Option.bind_eq_some_iff.1 h
      obtain ⟨values, hvalues, h⟩ := Option.bind_eq_some_iff.1 h
      obtain ⟨formulas, -, h⟩ := Option.bind_eq_some_iff.1 h
      obtain ⟨types, -, h⟩ := Option.bind_eq_some_iff.1 h
      cases h
      have hsound : ∀ m ∈ values.entries, m.2.Sound := by
        intro m hm
        -- a member that is missing counts as empty
        rcases Json.cases_of_defaulted? hvalues with rfl | ⟨j, hread⟩
        · cases hm
        · exact sound_of_readValues? hread hm
      have hcells : ∀ e ∈ (cellsOf values).entries, e.2.Sound := by
        intro e he
        obtain ⟨-, -, key, hkey⟩ := mem_cellsOf he
        exact hsound _ hkey
      have hfinite : ∀ x ∈ rect.doubles, x.isFinite = true := by
        rcases Json.cases_of_defaulted? hrect with rfl | ⟨j, hread⟩
        · exact Rect.isFinite_default
        · exact Rect.isFinite_of_ofJson? hread
      refine ⟨⟨?_, ?_, ?_, ?_, rfl⟩, rfl⟩
      case refine_1 =>
          intro x hx
          rcases List.mem_append.1 hx with hx | hx
          · exact hfinite x hx
          · obtain ⟨e, he, hx⟩ := List.mem_flatMap.1 hx
            exact (hcells e he).finite x hx
      case refine_2 => exact fun e he => (mem_cellsOf he).1
      case refine_3 => exact fun e he => (hcells e he).inDay
      case refine_4 => exact fun e he => (mem_cellsOf he).2.1.2
  next => cases h

-- ================================================================ sheets

/-- A sheet with the tables that were read in it. -/
structure Gathered (s : Sheet × List Table) : Prop where
  listed : s.1.tableIds = s.2.map Table.id
  owned : ∀ t ∈ s.2, t.Reported ∧ t.sheetId = s.1.id

theorem gathered_of_readSheet? {j : Json} {s : Sheet × List Table}
    (h : readSheet? j = some s) :
    Gathered s := by
  unfold readSheet? at h
  obtain ⟨fields, -, h⟩ := Option.bind_eq_some_iff.1 h
  split at h
  next =>
      obtain ⟨id, -, h⟩ := Option.bind_eq_some_iff.1 h
      obtain ⟨name, -, h⟩ := Option.bind_eq_some_iff.1 h
      obtain ⟨tables, htables, h⟩ := Option.bind_eq_some_iff.1 h
      cases h
      refine ⟨rfl, fun t ht => ?_⟩
      rcases Json.cases_of_defaulted? htables with rfl | ⟨j, hread⟩
      · cases ht
      · obtain ⟨item, hitem⟩ := Json.exists_of_asList? hread ht
        exact reported_of_readTable? hitem
  next => cases h

end Snapshot

namespace Project

open Snapshot (Gathered)

variable {sheets : List (Sheet × List Table)}

theorem reported_ofSheets (h : ∀ s ∈ sheets, Gathered s) :
    (ofSheets sheets).Reported := by
  have hread : ∀ {id t}, (ofSheets sheets).table? id = some t →
      t.id = id ∧ ∃ s ∈ sheets, t ∈ s.2 := by
    intro id t ht
    obtain ⟨s, hs, hmem⟩ :=
      List.mem_flatMap.1 (SortedMap.mem_of_get?_ofList ht)
    obtain ⟨t', ht', heq⟩ := List.mem_map.1 hmem
    cases heq
    exact ⟨rfl, s, hs, ht'⟩
  refine ⟨?known, fun id t ht => (hread ht).1, ?listed, ?tables⟩
  case known =>
    intro s' hs' id hid
    obtain ⟨s, hs, rfl⟩ := List.mem_map.1 hs'
    obtain ⟨e, he, rfl⟩ := (Snapshot.mem_tableIds (h s hs).listed).1 hid
    exact SortedMap.exists_get?_ofList (List.mem_flatMap.2 ⟨s, hs, he⟩)
  case listed =>
    intro id t ht
    rw [Snapshot.table?_ofSheets fun s hs => (h s hs).listed] at ht
    -- the entry comes from the last sheet that lists the table
    obtain ⟨s, hlast, hentry⟩ := Option.bind_eq_some_iff.1 ht
    obtain ⟨hs, -⟩ := List.mem_filter.1 (List.mem_of_getLast? hlast)
    obtain ⟨t', ht', heq⟩ := List.mem_map.1 (mem_of_lastEntry hentry)
    cases heq
    show (((sheets.map (·.1)).filter _).getLast?).map Sheet.id = _
    rw [List.filter_map, List.getLast?_map, Option.map_map]
    show ((sheets.filter fun s => s.1.tableIds.contains t.id).getLast?).map _
        = _
    rw [hlast, Option.map_some, ((h s hs).owned t ht').2]
    rfl
  case tables =>
    intro id t ht
    obtain ⟨-, s, hs, hmem⟩ := hread ht
    exact ((h s hs).owned t hmem).1

/-- What is read from a snapshot can be reported. -/
theorem reported_of_parse? {t : Text} {p : Project} (h : parse? t = some p) :
    p.Reported := by
  obtain ⟨j, -, h⟩ := Option.bind_eq_some_iff.1 h
  unfold ofJson? at h
  obtain ⟨fields, -, h⟩ := Option.bind_eq_some_iff.1 h
  split at h
  next =>
      obtain ⟨sheets, hsheets, h⟩ := Option.bind_eq_some_iff.1 h
      cases h
      refine reported_ofSheets fun s hs => ?_
      rcases Json.cases_of_defaulted? hsheets with rfl | ⟨j, hread⟩
      · cases hs
      · obtain ⟨item, hitem⟩ := Json.exists_of_asList? hread hs
        exact Snapshot.gathered_of_readSheet? hitem
  next => cases h

-- ============================================================ round trip

/-- A project is read back from its snapshot if it can be reported, and what
is read from any snapshot can be. -/
theorem snapshot_read_back :
    (∀ p : Project, p.Reported → p.InWords → (∀ x ∈ p.doubles, x.Reread) →
      parse? p.text = some p)
      ∧ ∀ (t : Text) (p : Project), parse? t = some p → p.Reported :=
  ⟨fun _ h hwords hdoubles => parse?_text h hwords hdoubles,
    fun _ _ => reported_of_parse?⟩

/-- A table with a value of every kind that can be stored. -/
def mixedTable : Table :=
  { Table.blank "t".toList "s2".toList "Mixed \"one\"".toList
      ⟨.ofNat 12, .ofDecimal true 25 (-1), .ofNat 480, .ofNat 240⟩ 3 28 with
    bands := ⟨1, 0, 0, 0⟩
    cells := .ofList [(⟨.body, 0, 0⟩, .text "line\nbreak".toList),
      (⟨.body, 0, 27⟩, .number (.ofDecimal false 15 (-1))),
      (⟨.body, 10, 0⟩, .boolean true),
      (⟨.body, 2, 1⟩, .date ⟨-44, 3, 15, rfl⟩),
      (⟨.topLabels, 0, 0⟩, .time 86399)]
    formulas := .ofList [("body[B0]".toList, "=A0*2".toList)]
    columnTypes := .ofList [(2, "string".toList), (10, "number".toList)] }

/-- A table that two sheets list. -/
def twiceListed : Project :=
  ⟨[⟨"s1".toList, "First".toList, ["t".toList]⟩,
    ⟨"s2".toList, "Second".toList, ["t".toList]⟩],
      .ofList [("t".toList, mixedTable)]⟩

theorem snapshot_read_back_twiceListed :
    twiceListed.Reported ∧ twiceListed.InWords
      ∧ (∀ x ∈ twiceListed.doubles, x.Reread)
      ∧ parse? twiceListed.text = some twiceListed := by
  have honly : ∀ {id t}, twiceListed.table? id = some t → id = "t".toList
      ∧ t = mixedTable := by
    intro id t h
    have hmem : (id, t) ∈ [("t".toList, mixedTable)] :=
      SortedMap.get?_eq_some_iff.1 h
    cases List.mem_singleton.1 hmem
    exact ⟨rfl, rfl⟩
  have htable : mixedTable.Reported :=
    ⟨by decide +kernel, by decide +kernel, by decide +kernel,
      by decide +kernel, rfl⟩
  have hwords : mixedTable.InWords :=
    ⟨by decide +kernel, by decide +kernel, by decide +kernel,
      by decide +kernel⟩
  have hknown : ∀ s ∈ twiceListed.sheets, ∀ id ∈ s.tableIds,
      (twiceListed.table? id).isSome = true := by
    decide +kernel
  have hreported : twiceListed.Reported := by
    refine ⟨?_, ?_, ?_, ?_⟩
    · exact fun s hs id hid => Option.isSome_iff_exists.1 (hknown s hs id hid)
    · intro id t h
      obtain ⟨rfl, rfl⟩ := honly h
      rfl
    · intro id t h
      obtain ⟨rfl, rfl⟩ := honly h
      rfl
    · intro id t h
      obtain ⟨-, rfl⟩ := honly h
      exact htable
  have hall : twiceListed.InWords := by
    intro id t h
    obtain ⟨-, rfl⟩ := honly h
    exact hwords
  have hdoubles : ∀ x ∈ twiceListed.doubles, x.Reread := by decide +kernel
  exact ⟨hreported, hall, hdoubles,
    snapshot_read_back.1 twiceListed hreported hall hdoubles⟩

end Project

end GridScript
