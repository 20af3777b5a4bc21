/-
Sheets and tables belong together. Whatever commands a project is made by,
and whichever of them are refused on the way: no two sheets have one
identifier, every table is listed once, by the sheet that it stands on,
nothing is listed that is not there, and a summary sums up a table that is
there. In the tables themselves no cell is kept that is empty, and each
formula is kept in its stored form under the text of a target that is read
from that text again.

# The invariant

`WellFormed` says what holds among sheets and between sheets and tables,
and `Fitting` what holds of one table, beside the sheets. A command changes
one table in place (`WellFormed.changeTable`), where only what it does to
cells and formulas is left to ask (`Tidy`), or it adds a table to a sheet
(`WellFormed.addTable`), or it is about the sheets alone. Adding is the one
place where the two collections change together. Sheets have identifiers of
their own, so the sheet that is changed is the only one with its
identifier, and changing the first one is changing each one
(`changeFirst_eq_map`).
-/
import GridScript.Proofs.Formula.Form
import GridScript.Proofs.Grid.Address
import GridScript.Proofs.Project.Tables

namespace GridScript

-- ================================================================ tables

namespace Formula

/-- The text is a formula as it is stored: its body behind an equals sign. -/
def IsStored (formula : Text) : Prop :=
  ∃ t, formula = '=' :: t ∧ t ≠ [] ∧ Text.trim t = t ∧ body formula = t

/-- What is stored is read as the body that it was made of, also when that
begins with an equals sign. -/
theorem isStored_storedFormula {source : Text}
    (h : Command.clears source = false) :
    IsStored (Command.storedFormula source) := by
  have hne : body source ≠ [] := by
    intro hnil
    unfold Command.clears at h
    rw [hnil] at h
    cases h
  have hframed := framed_body hne
  have hwhole : Text.Framed ('=' :: body source) := by
    obtain ⟨d, hlast, hd⟩ := hframed.last
    refine ⟨⟨'=', _, rfl, by decide⟩, d, ?_, hd⟩
    rw [List.getLast?_cons, hlast]
    rfl
  refine ⟨body source, rfl, hne, hframed.trim, ?_⟩
  show body ('=' :: body source) = _
  rw [body, hwhole.trim]
  exact hframed.trim

end Formula

/-- The text is that of a target, and the target is read from it again. -/
def Target.IsText (key : Text) : Prop :=
  ∃ target : Target, key = target.text ∧ parse key = .ok target

namespace Table

/-- No cell of the table is kept that is empty, and its formulas are kept
in their stored form under the texts of targets. -/
structure Tidy (t : Table) : Prop where
  values : ∀ c v, t.value? c = some v → v ≠ .empty
  formulas : ∀ key formula, t.formulas.get? key = some formula →
    Target.IsText key ∧ Formula.IsStored formula

theorem tidy_blank (id sheetId name : Text) (rect : Rect) (rows cols : Nat) :
    (blank id sheetId name rect rows cols).Tidy :=
  ⟨fun _ _ h => (by cases h), fun _ _ h => (by cases h)⟩

/-- Nothing but cells and formulas matters. -/
theorem Tidy.congr {t u : Table} (h : t.Tidy) (hcells : u.cells = t.cells)
    (hformulas : u.formulas = t.formulas) : u.Tidy := by
  refine ⟨fun c v hv => h.values c v ?_,
    fun key formula hf => h.formulas key formula ?_⟩
  · unfold value? at hv ⊢
    rwa [← hcells]
  · rwa [← hformulas]

/-- Cells that were filtered are cells that were there. -/
theorem Tidy.of_filter {t : Table} (h : t.Tidy) (p : Cell → Value → Bool) :
    Tidy { t with cells := t.cells.filter p } := by
  refine ⟨fun c v hv => h.values c v ?_, h.formulas⟩
  unfold value? at hv ⊢
  rw [SortedMap.get?_filter] at hv
  exact (Option.filter_eq_some_iff.1 hv).1

theorem Tidy.writeAll {t : Table} (h : t.Tidy) (es : List (Cell × Value)) :
    (t.writeAll es).Tidy := by
  refine ⟨fun c v hv => ?_, fun key formula hf => h.formulas key formula ?_⟩
  · unfold value? at hv
    rw [get?_writeAll] at hv
    split at hv
    next written _ =>
        unfold Value.stored at hv
        split at hv
        next => cases hv
        next hkept =>
            injection hv with hv
            rintro rfl
            exact hkept (hv ▸ rfl)
    next => exact h.values c v hv
  · rw [writeAll_eq] at hf
    exact hf

/-- Setting a formula changes the cells and the formulas alone. -/
theorem setFormula_eq (t : Table) (target : Target) (formula : Text) :
    t.setFormula target formula = { t with
      cells := (t.setFormula target formula).cells
      formulas := (t.setFormula target formula).formulas } := by
  unfold setFormula clear
  cases target <;> cases Command.clears formula <;> rfl

/-- Clearing takes values and a formula away, and setting puts one in its
stored form under the text of its target. -/
theorem Tidy.setFormula {t : Table} (h : t.Tidy) {target : Target}
    (formula : Text) (htarget : Target.IsText target.text) :
    (t.setFormula target formula).Tidy := by
  unfold Table.setFormula
  cases hclears : Command.clears formula with
  | true =>
      -- to clear only takes values away
      have hclear : (t.clear target).Tidy := by
        cases target with
        | cell c => exact h.of_filter _
        | range r => exact h.of_filter _
      refine ⟨hclear.values, fun key f hf => ?_⟩
      simp only [if_true, SortedMap.get?_erase] at hf
      split at hf
      next => cases hf
      next => exact h.formulas key f hf
  | false =>
      refine ⟨h.values, fun key f hf => ?_⟩
      simp only [Bool.false_eq_true, if_false, SortedMap.get?_insert_eq] at hf
      split at hf
      next heq =>
          injection hf with hf
          rw [← heq, ← hf]
          exact ⟨htarget, Formula.isStored_storedFormula hclears⟩
      next => exact h.formulas key f hf

end Table

-- ============================================================== projects

/-- What is found at the keys of a map, one after the other, is what the map
holds. -/
theorem SortedMap.filterMap_get?_keys {κ ν : Type} [Ord κ] [Std.TransOrd κ]
    [Std.LawfulEqOrd κ] (m : SortedMap κ ν) : m.keys.filterMap m.get?
      = m.entries.map Prod.snd := by
  have hfound : ∀ e ∈ m.entries, m.get? e.1 = some e.2 :=
    fun e he => get?_eq_some_iff.2 he
  unfold keys
  revert hfound
  induction m.entries with
  | nil => exact fun _ => rfl
  | cons e rest ih =>
      intro hfound
      obtain ⟨hhead, hrest⟩ := List.forall_mem_cons.1 hfound
      rw [List.map_cons, List.filterMap_cons_some hhead, ih hrest,
        List.map_cons]

namespace Project

/-- The identifiers that the sheets list. -/
def listedIds (sheets : List Sheet) : List Text :=
  sheets.flatMap Sheet.tableIds

/-- A table that is kept under an identifier is as it should be beside the
sheets and the other tables. -/
structure Fitting (p : Project) (id : Text) (t : Table) : Prop where
  key : t.id = id
  /-- The sheet that lists the table is the one it says it stands on. -/
  sheet : ∀ s ∈ p.sheets, id ∈ s.tableIds ↔ s.id = t.sheetId
  tidy : t.Tidy
  source : ∀ summary, t.summary = some summary → p.Has summary.source

/-- Sheets and tables belong together. -/
structure WellFormed (p : Project) : Prop where
  sheets : (p.sheets.map Sheet.id).Nodup
  listed : (listedIds p.sheets).Nodup
  keys : ∀ id, id ∈ listedIds p.sheets ↔ p.Has id
  tables : ∀ id t, p.table? id = some t → p.Fitting id t

theorem wellFormed_empty : empty.WellFormed where
  sheets := List.nodup_nil
  listed := List.nodup_nil
  keys := fun _ => ⟨fun h => (by cases h), fun h => (by cases h)⟩
  tables := fun _ _ h => by cases h

/-- What sheets list together is what there is, so the tables that the
sheets list are all tables, each of them once. -/
theorem WellFormed.listedTables_perm {p : Project} (h : p.WellFormed) :
    p.listedTables.Perm (p.tables.entries.map Prod.snd) := by
  have hkeys : p.tables.keys.Nodup := p.tables.nodup_keys
  have hperm : (listedIds p.sheets).Perm p.tables.keys :=
    (List.perm_ext_iff_of_nodup h.listed hkeys).2 fun id => by
      rw [h.keys, has_iff_mem_keys]
  have hlisted : p.listedTables = (listedIds p.sheets).filterMap p.table? := by
    unfold listedTables listedIds
    rw [List.filterMap_flatMap]
  have hentries : p.tables.keys.filterMap p.table?
      = p.tables.entries.map Prod.snd :=
    p.tables.filterMap_get?_keys
  rw [hlisted, ← hentries]
  exact hperm.filterMap _

-- ================================================================ sheets

section Sheets

variable {id : Text} {f : Sheet → Sheet} {ss : List Sheet}

/-- With identifiers that are told apart, the first sheet with an
identifier is the only one. -/
theorem changeFirst_eq_map (h : (ss.map Sheet.id).Nodup) :
    changeFirst id f ss = ss.map fun s => if s.id = id then f s else s := by
  induction ss with
  | nil => rfl
  | cons s ss ih =>
      rw [List.map_cons, List.nodup_cons] at h
      rw [changeFirst, List.map_cons]
      by_cases hs : s.id = id
      · have hothers : ∀ r ∈ ss, r.id ≠ id := by
          rintro r hr hid
          exact h.1 (List.mem_map.2 ⟨r, hr, hid.trans hs.symm⟩)
        have hrest : ss.map (fun s => if s.id = id then f s else s)
            = ss.map fun s => s :=
          List.map_congr_left fun r hr => if_neg (hothers r hr)
        rw [if_pos hs, if_pos hs, hrest, List.map_id']
      · rw [if_neg hs, if_neg hs, ih h.2]

/-- What a change leaves of each sheet it leaves of all. -/
theorem map_changeFirst {α : Type} {g : Sheet → α} (h : ∀ s, g (f s) = g s) :
    (changeFirst id f ss).map g = ss.map g := by
  induction ss with
  | nil => rfl
  | cons s ss ih =>
      rw [changeFirst]
      split
      next => rw [List.map_cons, List.map_cons, h]
      next => rw [List.map_cons, List.map_cons, ih]

/-- A sheet lists one more table, and the sheets together list one more. -/
theorem listedIds_changeFirst {tableId : Text}
    (hf : ∀ s, (f s).tableIds = s.tableIds ++ [tableId])
    (h : ∃ s ∈ ss, s.id = id) :
    (listedIds (changeFirst id f ss)).Perm (tableId :: listedIds ss) := by
  unfold listedIds
  induction ss with
  | nil =>
      obtain ⟨s, hs, -⟩ := h
      cases hs
  | cons s ss ih =>
      rw [changeFirst]
      split
      next =>
          rw [List.flatMap_cons, List.flatMap_cons, hf, List.append_assoc]
          exact List.perm_middle
      next hs =>
          have hrest : ∃ s ∈ ss, s.id = id := by
            obtain ⟨r, hr, hid⟩ := h
            rcases List.mem_cons.1 hr with rfl | hr
            · exact absurd hid hs
            · exact ⟨r, hr, hid⟩
          rw [List.flatMap_cons, List.flatMap_cons]
          exact ((ih hrest).append_left _).trans List.perm_middle

end Sheets

-- =============================================================== changes

namespace WellFormed

variable {p q : Project}

/-- Every table stands on a sheet. -/
theorem exists_sheet (h : p.WellFormed) {id : Text} {t : Table}
    (ht : p.table? id = some t) :
    ∃ s ∈ p.sheets, s.id = t.sheetId := by
  have hlisted : id ∈ listedIds p.sheets :=
    (h.keys id).2 (by unfold Has; rw [ht]; rfl)
  obtain ⟨s, hs, hid⟩ := List.mem_flatMap.1 hlisted
  exact ⟨s, hs, ((h.tables id t ht).sheet s hs).1 hid⟩

/-- A new sheet lists nothing, and no table has said that it stands there. -/
theorem addSheet (h : p.WellFormed) {id name : Text}
    (hadd : p.addSheet id name = .ok q) :
    q.WellFormed := by
  obtain ⟨hfresh, rfl⟩ := addSheet_eq_ok hadd
  have hlisted : listedIds (p.sheets ++ [⟨id, name, []⟩])
      = listedIds p.sheets := by
    simp [listedIds]
  refine ⟨?_, by rw [hlisted]; exact h.listed,
    fun id' => by rw [hlisted]; exact h.keys id', ?_⟩
  · rw [List.map_append, List.nodup_append]
    refine ⟨h.sheets, List.nodup_cons.2 ⟨List.not_mem_nil, List.nodup_nil⟩, ?_⟩
    intro a ha b hb
    obtain ⟨s, hs, rfl⟩ := List.mem_map.1 ha
    rw [List.mem_singleton.1 hb]
    exact hfresh s hs
  · intro id' t ht
    have hold := h.tables id' t ht
    refine ⟨hold.key, fun s hs => ?_, hold.tidy, hold.source⟩
    rcases List.mem_append.1 hs with hs | hs
    · exact hold.sheet s hs
    -- the new sheet lists nothing, and no table says that it stands there
    · obtain ⟨home, hhome, hid⟩ := h.exists_sheet ht
      rw [List.mem_singleton.1 hs]
      refine ⟨fun hmem => (by cases hmem), fun heq => ?_⟩
      exact absurd (hid.trans heq.symm) (hfresh home hhome)

/-- A sheet that keeps its identifier and its tables. -/
theorem changeSheet (h : p.WellFormed) {id : Text} {f : Sheet → Sheet}
    (hchange : p.changeSheet id f = .ok q) (hid : ∀ s, (f s).id = s.id)
    (hids : ∀ s, (f s).tableIds = s.tableIds) : q.WellFormed := by
  obtain ⟨-, rfl⟩ := changeSheet_eq_ok hchange
  have hlisted : listedIds (changeFirst id f p.sheets)
      = listedIds p.sheets := by
    unfold listedIds
    rw [List.flatMap_def, List.flatMap_def, map_changeFirst hids]
  refine ⟨?_, by rw [hlisted]; exact h.listed,
    fun id' => by rw [hlisted]; exact h.keys id', ?_⟩
  · rw [map_changeFirst hid]
    exact h.sheets
  · intro id' t ht
    have hold := h.tables id' t ht
    refine ⟨hold.key, fun s hs => ?_, hold.tidy, hold.source⟩
    simp only [changeFirst_eq_map h.sheets] at hs
    obtain ⟨r, hr, rfl⟩ := List.mem_map.1 hs
    split
    next =>
        rw [hid, hids]
        exact hold.sheet r hr
    next => exact hold.sheet r hr

/-- A table that keeps its place and its source, and stays tidy. -/
theorem changeTable (h : p.WellFormed) {id : Text} {f : Table → Table}
    (hchange : p.changeTable id f = .ok q) (hid : ∀ t, (f t).id = t.id)
    (hsheet : ∀ t, (f t).sheetId = t.sheetId)
    (hsummary : ∀ t, (f t).summary = t.summary)
    (htidy : ∀ t, t.Tidy → (f t).Tidy) : q.WellFormed := by
  have hhas := (has_changeTable hchange).2
  obtain ⟨t, ht, rfl⟩ := changeTable_eq_ok hchange
  refine ⟨h.sheets, h.listed, fun id' => (h.keys id').trans (hhas id').symm,
    fun id' u hu => ?_⟩
  unfold table? at hu
  simp only [SortedMap.get?_insert_eq] at hu
  split at hu
  next heq =>
      injection hu with hu
      subst heq hu
      have hold := h.tables id t ht
      refine ⟨(hid t).trans hold.key, fun s hs => ?_, htidy t hold.tidy,
        fun summary hs => ?_⟩
      · rw [hsheet]
        exact hold.sheet s hs
      · rw [hsummary] at hs
        exact (hhas _).2 (hold.source summary hs)
  next =>
      have hold := h.tables id' u hu
      exact ⟨hold.key, hold.sheet, hold.tidy,
        fun summary hs => (hhas _).2 (hold.source summary hs)⟩

/-- A new table is listed by its sheet, and by no other. -/
theorem addTable (h : p.WellFormed) {new : Table}
    (hadd : p.addTable new = .ok q) (htidy : new.Tidy)
    (hsource : ∀ summary, new.summary = some summary → p.Has summary.source) :
    q.WellFormed := by
  obtain ⟨hnot, hhas⟩ := has_addTable hadd
  obtain ⟨-, hfound, hq⟩ := addTable_eq_ok hadd
  have hgrow : ∀ {t : Text}, p.Has t → q.Has t :=
    fun ht => (hhas _).2 (Or.inl ht)
  have hout : new.id ∉ listedIds p.sheets :=
    fun hmem => hnot ((h.keys new.id).1 hmem)
  have hsheets : q.sheets = p.sheets.map fun s =>
      if s.id = new.sheetId then { s with tableIds := s.tableIds ++ [new.id] }
      else s := by
    rw [hq]
    exact changeFirst_eq_map h.sheets
  have hperm : (listedIds q.sheets).Perm (new.id :: listedIds p.sheets) := by
    rw [hq]
    exact listedIds_changeFirst (fun _ => rfl) hfound
  -- of the sheets only the one that the new table stands on lists it
  have hnew : ∀ s ∈ q.sheets, new.id ∈ s.tableIds ↔ s.id = new.sheetId := by
    intro s hs
    rw [hsheets] at hs
    obtain ⟨r, hr, rfl⟩ := List.mem_map.1 hs
    have hout' : new.id ∉ r.tableIds :=
      fun hmem => hout (List.mem_flatMap.2 ⟨r, hr, hmem⟩)
    split
    next hhome => simp [hhome]
    next hother => simp [hother, hout']
  refine ⟨?_, hperm.nodup_iff.2 (List.nodup_cons.2 ⟨hout, h.listed⟩),
    fun id => ?_, fun id t ht => ?_⟩
  · have hids : q.sheets.map Sheet.id = p.sheets.map Sheet.id := by
      rw [hq]
      exact map_changeFirst fun _ => rfl
    rw [hids]
    exact h.sheets
  · rw [hperm.mem_iff, List.mem_cons, h.keys, hhas, or_comm, eq_comm]
  · rw [hq] at ht
    unfold table? at ht
    simp only [SortedMap.get?_insert_eq] at ht
    split at ht
    next heq =>
        injection ht with ht
        subst heq ht
        exact ⟨rfl, hnew, htidy, fun summary hs => hgrow (hsource summary hs)⟩
    next hne =>
        -- an older table, listed where it was
        have hold := h.tables id t ht
        refine ⟨hold.key, fun s hs => ?_, hold.tidy,
          fun summary hs => hgrow (hold.source summary hs)⟩
        rw [hsheets] at hs
        obtain ⟨r, hr, rfl⟩ := List.mem_map.1 hs
        split
        next => simpa [Ne.symm hne] using hold.sheet r hr
        next => exact hold.sheet r hr

end WellFormed

end Project

-- ============================================================== commands

namespace Command

/-- A target that the command sets a formula on was read from a text. -/
def Addressed : Command → Prop
  | setFormula _ target _ => ∃ input, Target.parse input = .ok target
  | _ => True

/-- What is summed up is there. -/
theorem has_source_of_createSummary {p q : Project} {new : NewSummary}
    (h : (createSummary new).apply p = .ok q) : p.Has new.source := by
  unfold Project.Has
  cases hsource : p.table? new.source with
  | none =>
      simp only [apply, hsource] at h
      cases h
  | some source => rfl

/-- A command keeps sheets and tables together. -/
theorem wellFormed_apply {p q : Project} (h : p.WellFormed) {c : Command}
    (hc : c.Addressed) (happly : c.apply p = .ok q) : q.WellFormed := by
  have hbeside : ∀ {id : Text} {f : Table → Table},
      p.changeTable id f = .ok q →
      (∀ t, (f t).id = t.id ∧ (f t).sheetId = t.sheetId
        ∧ (f t).summary = t.summary
        ∧ (f t).cells = t.cells ∧ (f t).formulas = t.formulas) →
          q.WellFormed := by
    intro id f hchange hf
    exact h.changeTable hchange (fun t => (hf t).1) (fun t => (hf t).2.1)
      (fun t => (hf t).2.2.1)
      fun t htidy => htidy.congr (hf t).2.2.2.1 (hf t).2.2.2.2
  have hwrites : ∀ {id : Text} (es : List (Cell × Value)),
      p.changeTable id (fun t => t.writeAll es) = .ok q → q.WellFormed := by
    intro id es hchange
    refine h.changeTable hchange ?_ ?_ ?_ fun t htidy => htidy.writeAll es
    all_goals
      intro t
      rw [Table.writeAll_eq]
  cases c with
  | createSheet id name => exact h.addSheet happly
  | renameSheet id name =>
      exact h.changeSheet happly (fun _ => rfl) fun _ => rfl
  | createTable new =>
      refine h.addTable happly ?_ fun summary hs => (by cases hs)
      exact (Table.tidy_blank new.tableId new.sheetId new.name new.rect
        new.rows new.cols).congr rfl rfl
  | createSummary new =>
      refine h.addTable (addTable_of_createSummary happly) ?_ ?_
      · exact (Table.tidy_blank new.tableId new.sheetId new.name new.rect 1
          new.columns).congr rfl rfl
      · rintro summary ⟨⟩
        exact has_source_of_createSummary happly
  | setCells id cells => exact hwrites cells.entries happly
  | setRange id start values => exact hwrites (rangeCells start values) happly
  | setFormula id target formula =>
      -- a target that was read is stored under its own text
      obtain ⟨input, hread⟩ := hc
      have htext : Target.IsText target.text :=
        ⟨target, rfl, Target.parse_text_of_parse hread⟩
      refine h.changeTable happly ?_ ?_ ?_ fun t htidy =>
        htidy.setFormula formula htext
      all_goals
        intro t
        rw [Table.setFormula_eq]
  | script lines =>
      injection happly with hq
      exact hq ▸ h
  | _ => exact hbeside happly fun t => ⟨rfl, rfl, rfl, rfl, rfl⟩

end Command

namespace Project

/-- The project after a command, also after one that is refused. -/
def attempt (p : Project) (c : Command) : Project :=
  match c.apply p with
  | .ok q => q
  | .error _ => p

/-- The project after commands in a row. -/
def attemptAll (p : Project) (cs : List Command) : Project :=
  cs.foldl attempt p

theorem WellFormed.attempt {p : Project} (h : p.WellFormed) {c : Command}
    (hc : c.Addressed) :
    (p.attempt c).WellFormed := by
  unfold Project.attempt
  split
  next q hq => exact Command.wellFormed_apply h hc hq
  next => exact h

theorem WellFormed.attemptAll {p : Project} (h : p.WellFormed)
    {cs : List Command} (hcs : ∀ c ∈ cs, c.Addressed) :
    (p.attemptAll cs).WellFormed := by
  induction cs generalizing p with
  | nil => exact h
  | cons c cs ih =>
      obtain ⟨hc, hrest⟩ := List.forall_mem_cons.1 hcs
      exact ih (h.attempt hc) hrest

/-- Whatever is done to a project that was made empty, sheets and tables
belong together, and the tables in the order of the sheets are all tables,
each of them once. -/
theorem wellFormed_attemptAll (cs : List Command) (h : ∀ c ∈ cs, c.Addressed) :
    let p := empty.attemptAll cs
    p.WellFormed ∧ p.listedTables.Perm (p.tables.entries.map Prod.snd) := by
  intro p
  have hp : p.WellFormed := wellFormed_empty.attemptAll h
  exact ⟨hp, hp.listedTables_perm⟩

/-- A sheet with a table, a second table for which there is no sheet, a
cell that is written and emptied, and a formula with blanks and two equals
signs on a range that is spelt from its other end. -/
def patchwork : List Command :=
  let table (sheetId tableId : Text) : NewTable :=
    ⟨sheetId, tableId, tableId, default, 2, 2, .none⟩
  [.createSheet "s".toList "S".toList,
   .createTable (table "s".toList "t".toList),
   .createTable (table "r".toList "u".toList),
   .setRange "t".toList ⟨.body, 0, 0⟩ [[.boolean true, .empty], [.empty]],
   .setRange "t".toList ⟨.body, 0, 0⟩ [[.empty]],
   .setFormula "t".toList (.range ⟨.body, 0, 0, 1, 1, by decide, by decide⟩)
     " = =a0 ".toList]

theorem wellFormed_attemptAll_patchwork :
    (∀ c ∈ patchwork, c.Addressed)
      ∧ (empty.attemptAll patchwork).Has "t".toList
      ∧ (empty.attemptAll patchwork).WellFormed
      ∧ (empty.attemptAll patchwork).listedTables.Perm
          ((empty.attemptAll patchwork).tables.entries.map Prod.snd) := by
  have haddressed : ∀ c ∈ patchwork, c.Addressed := by
    unfold patchwork
    simp only [List.forall_mem_cons]
    refine ⟨trivial, trivial, trivial, trivial, trivial,
      ⟨"b1:$A0".toList, rfl⟩, ?_⟩
    exact fun c hc => by cases hc
  exact ⟨haddressed, by decide, wellFormed_attemptAll patchwork haddressed⟩

end Project

end GridScript
