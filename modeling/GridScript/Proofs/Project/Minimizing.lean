/-
Minimizing a table. The body is given the least number of rows and the
least number of columns that hold every cell with a value and every target
with a formula in full, and nothing else of the project changes; a table
that holds nothing keeps its size. What holds a list of cells is decided in
each dimension by itself: a size holds the cells exactly if it is no less
than the fold of `Table.enlarge` over them (`foldl_enlarge`). So the least
size and the fact that minimizing again does nothing are read off the fold,
whatever the order of the cells.

Only the last cell of a target is folded over. It stands for the others,
for no cell of a target lies below it or to the right of it
(`Target.Includes.le_last`).
-/
import GridScript.Proofs.Project.Tables

namespace GridScript

-- =============================================================== targets

namespace Target

/-- The cell is one that the target is made of. -/
def Includes : Target → Cell → Prop
  | cell d, c => c = d
  | range r, c => r.contains c = true

/-- The last cell of the target. -/
def last : Target → Cell
  | cell c => c
  | range r => r.stop

theorem lastOf_eq (target : Target) :
    Table.lastOf target = (target.last.row, target.last.col) := by
  cases target with
  | cell c => rfl
  | range r => rfl

theorem includes_last (target : Target) : target.Includes target.last := by
  cases target with
  | cell c => rfl
  | range r =>
      show r.contains r.stop = true
      simp [CellRange.contains, CellRange.stop, r.rows_le, r.cols_le]

theorem Includes.region {target : Target} {c : Cell} (h : target.Includes c) :
    c.region = target.region := by
  cases target with
  | cell d => exact congrArg Cell.region h
  | range r =>
      have hin : r.contains c = true := h
      simp only [CellRange.contains, Bool.and_eq_true, beq_iff_eq] at hin
      exact hin.1.1.1.1

theorem Includes.le_last {target : Target} {c : Cell} (h : target.Includes c) :
    c.row ≤ target.last.row ∧ c.col ≤ target.last.col := by
  cases target with
  | cell d =>
      have hc : c = d := h
      exact hc ▸ ⟨Nat.le_refl _, Nat.le_refl _⟩
  | range r =>
      have hin : r.contains c = true := h
      simp only [CellRange.contains, Bool.and_eq_true,
        decide_eq_true_eq] at hin
      exact ⟨hin.1.1.2, hin.2⟩

end Target

namespace Table

-- ================================================================== sizes

/-- A size holds some cells on top of another size exactly if it is no less
than what the fold makes of them. -/
theorem foldl_enlarge (cells : List (Nat × Nat)) (rows cols : Nat) :
    ∃ rows' cols',
      cells.foldl enlarge (some (rows, cols)) = some (rows', cols')
      ∧ ∀ m n, (rows' ≤ m ∧ cols' ≤ n)
          ↔ (rows ≤ m ∧ cols ≤ n) ∧ ∀ cell ∈ cells, cell.1 < m
            ∧ cell.2 < n := by
  induction cells generalizing rows cols with
  | nil => exact ⟨rows, cols, rfl, by simp⟩
  | cons cell cells ih =>
      obtain ⟨rows', cols', hfold, hleast⟩ :=
        ih (max rows (cell.1 + 1)) (max cols (cell.2 + 1))
      refine ⟨rows', cols', hfold, fun m n => ?_⟩
      have hstep : (max rows (cell.1 + 1) ≤ m ∧ max cols (cell.2 + 1) ≤ n)
          ↔ (rows ≤ m ∧ cols ≤ n) ∧ cell.1 < m ∧ cell.2 < n := by omega
      rw [hleast, hstep, List.forall_mem_cons, and_assoc]

-- ============================================================ what it needs

/-- The body needs the cell: it has a value, or it belongs to a target that
the key of a formula names. -/
def Needs (t : Table) (c : Cell) : Prop :=
  c.region = .body
    ∧ ((t.value? c).isSome = true
      ∨ ∃ key target, (t.formulas.get? key).isSome = true
          ∧ Target.parse key = .ok target
          ∧ target.Includes c)

/-- A body of this size has every cell that is needed. -/
def FitsIn (t : Table) (rows cols : Nat) : Prop :=
  ∀ c, t.Needs c → c.row < rows ∧ c.col < cols

theorem keyTarget?_eq_some_iff {key : Text} {target : Target} :
    keyTarget? key = some target ↔ Target.parse key = .ok target := by
  unfold keyTarget?
  cases Target.parse key with
  | error e => exact ⟨nofun, nofun⟩
  | ok found => simp [Except.toOption]

/-- The cells that are counted: those of the body with a value, and the last
ones of targets. -/
theorem mem_occupied_iff {t : Table} {at_ : Nat × Nat} :
    at_ ∈ t.occupied
      ↔ (∃ c, c.region = .body ∧ (t.value? c).isSome = true
        ∧ (c.row, c.col) = at_)
        ∨ ∃ key target, (t.formulas.get? key).isSome = true
            ∧ Target.parse key = .ok target
            ∧ target.region = .body
            ∧ (target.last.row, target.last.col) = at_ := by
  unfold occupied
  simp only [List.mem_append, List.mem_map, List.mem_filter,
    List.mem_filterMap, beq_iff_eq, SortedMap.mem_keys_iff,
    keyTarget?_eq_some_iff, Target.lastOf_eq, value?]
  refine or_congr ?_ ?_
  · simp only [and_assoc, and_left_comm]
  · constructor
    · rintro ⟨target, ⟨⟨key, hkey, hread⟩, hbody⟩, hlast⟩
      exact ⟨key, target, hkey, hread, hbody, hlast⟩
    · rintro ⟨key, target, hkey, hread, hbody, hlast⟩
      exact ⟨target, ⟨⟨key, hkey, hread⟩, hbody⟩, hlast⟩

/-- A cell that is counted is needed. -/
theorem exists_needs_of_mem_occupied {t : Table} {at_ : Nat × Nat}
    (h : at_ ∈ t.occupied) :
    ∃ c, t.Needs c ∧ (c.row, c.col) = at_ := by
  rcases mem_occupied_iff.1 h
    with ⟨c, hbody, hvalue, hat⟩ | ⟨key, target, hkey, hread, hbody, hat⟩
  · exact ⟨c, ⟨hbody, Or.inl hvalue⟩, hat⟩
  · have hlast := target.includes_last
    exact ⟨target.last,
      ⟨hlast.region.trans hbody, Or.inr ⟨key, target, hkey, hread, hlast⟩⟩,
      hat⟩

/-- A cell that is needed is not beyond all that are counted. -/
theorem Needs.exists_mem_occupied {t : Table} {c : Cell} (h : t.Needs c) :
    ∃ at_ ∈ t.occupied, c.row ≤ at_.1 ∧ c.col ≤ at_.2 := by
  obtain ⟨hbody, hvalue | ⟨key, target, hkey, hread, hin⟩⟩ := h
  · exact ⟨(c.row, c.col), mem_occupied_iff.2 (Or.inl ⟨c, hbody, hvalue, rfl⟩),
      Nat.le_refl _, Nat.le_refl _⟩
  · refine ⟨(target.last.row, target.last.col), mem_occupied_iff.2 (Or.inr ?_),
      hin.le_last⟩
    exact ⟨key, target, hkey, hread, hin.region.symm.trans hbody, rfl⟩

theorem fitsIn_iff {t : Table} {rows cols : Nat} :
    t.FitsIn rows cols ↔ ∀ at_ ∈ t.occupied, at_.1 < rows ∧ at_.2 < cols := by
  constructor
  · intro h at_ hat
    obtain ⟨c, hneeds, rfl⟩ := exists_needs_of_mem_occupied hat
    exact h c hneeds
  · intro h c hneeds
    obtain ⟨at_, hat, hrow, hcol⟩ := hneeds.exists_mem_occupied
    obtain ⟨hrows, hcols⟩ := h at_ hat
    exact ⟨Nat.lt_of_le_of_lt hrow hrows, Nat.lt_of_le_of_lt hcol hcols⟩

-- ============================================================== footprint

/-- There is no footprint exactly if no cell is needed. -/
theorem footprint_eq_none_iff {t : Table} :
    t.footprint = none ↔ ¬∃ c, t.Needs c := by
  unfold footprint
  cases hcells : t.occupied with
  | nil =>
      refine iff_of_true rfl ?_
      rintro ⟨c, hneeds⟩
      obtain ⟨at_, hat, -⟩ := hneeds.exists_mem_occupied
      rw [hcells] at hat
      cases hat
  | cons at_ rest =>
      obtain ⟨rows, cols, hfold, -⟩ := foldl_enlarge (at_ :: rest) 0 0
      have hsome : (at_ :: rest).foldl enlarge none = some (rows, cols) :=
        hfold
      have hat : at_ ∈ t.occupied := hcells ▸ List.mem_cons_self
      obtain ⟨c, hneeds, -⟩ := exists_needs_of_mem_occupied hat
      rw [hsome]
      exact iff_of_false nofun fun h => h ⟨c, hneeds⟩

/-- The footprint is the least size that holds what is needed. -/
theorem fitsIn_iff_of_footprint {t : Table} {size : Nat × Nat}
    (h : t.footprint = some size) (rows cols : Nat) :
    t.FitsIn rows cols ↔ size.1 ≤ rows ∧ size.2 ≤ cols := by
  rw [fitsIn_iff]
  unfold footprint at h
  cases hcells : t.occupied with
  | nil =>
      rw [hcells] at h
      cases h
  | cons at_ rest =>
      obtain ⟨rows', cols', hfold, hleast⟩ := foldl_enlarge (at_ :: rest) 0 0
      rw [hcells] at h
      cases hfold.symm.trans h
      rw [hleast, and_iff_right ⟨Nat.zero_le _, Nat.zero_le _⟩]

end Table

-- ============================================================ minimizing

namespace Table

/-- The table with the size of its footprint, if it has one. -/
def minimized (t : Table) : Table :=
  { t with
    rows := (t.footprint.getD (t.rows, t.cols)).1
    cols := (t.footprint.getD (t.rows, t.cols)).2 }

/-- The size of a table has no part in its footprint. -/
theorem footprint_minimized (t : Table) :
    t.minimized.footprint = t.footprint := rfl

end Table

namespace Command

/-- Minimizing a table changes the table and nothing else. -/
theorem apply_minimizing {p : Project} {t : Table}
    (h : p.table? t.id = some t) :
    (minimizing t).apply p = .ok { p with
        tables := p.tables.insert t.id t.minimized } := by
  unfold minimizing
  simp only [apply, Project.changeTable, h]
  congr
  unfold Table.resized Table.minimized
  cases hsize : t.footprint with
  | none => rfl
  | some size =>
      rw [Option.filter_some]
      split
      next => rfl
      next hsame =>
          have heq : size = (t.rows, t.cols) := by simpa using hsame
          rw [heq]
          rfl

theorem isIdle_minimizing_minimized (t : Table) :
    (minimizing t.minimized).isIdle = true := by
  show ((t.minimized.footprint.filter _).isNone) = true
  rw [Table.footprint_minimized]
  cases hsize : t.footprint with
  | none => rfl
  | some size =>
      have hsame : (t.minimized.rows, t.minimized.cols) = size := by
        simp [Table.minimized, hsize]
      rw [Option.filter_some, hsame, if_neg (by simp)]
      rfl

end Command

/-- Minimizing a table changes the size of its body and nothing else. If
there is a cell in the body with a value or with a target of a formula on
it, the body becomes the least one, in both dimensions, that has all of
these cells; if there is none, it stays as it is. To minimize once more does
nothing. -/
theorem Command.minimizing_least {p : Project} {t : Table}
    (h : p.table? t.id = some t) :
    ∃ rows cols,
      (minimizing t).apply p
          = .ok { p with
              tables :=
                p.tables.insert t.id { t with rows := rows, cols := cols } }
        ∧ ((∃ c, t.Needs c) → t.FitsIn rows cols
            ∧ ∀ rows' cols', t.FitsIn rows' cols' → rows ≤ rows'
            ∧ cols ≤ cols')
        ∧ ((¬∃ c, t.Needs c) → rows = t.rows ∧ cols = t.cols)
        ∧ (minimizing { t with rows := rows, cols := cols }).isIdle
          = true := by
  refine ⟨t.minimized.rows, t.minimized.cols, apply_minimizing h, ?_, ?_,
    isIdle_minimizing_minimized t⟩
  · intro hneeds
    obtain ⟨size, hsize⟩ : ∃ size, t.footprint = some size :=
      Option.ne_none_iff_exists'.1 fun hnone =>
        Table.footprint_eq_none_iff.1 hnone hneeds
    have hleast := Table.fitsIn_iff_of_footprint hsize
    have hminimized : (t.minimized.rows, t.minimized.cols) = size := by
      simp [Table.minimized, hsize]
    rw [← hminimized] at hleast
    exact ⟨(hleast _ _).2 ⟨Nat.le_refl _, Nat.le_refl _⟩,
      fun rows' cols' => (hleast rows' cols').1⟩
  · intro hnone
    have hsize := Table.footprint_eq_none_iff.2 hnone
    simp [Table.minimized, hsize]

/-- A value and a range that lie apart in the body, labels and a formula
beyond them, and a key that names no target. -/
def Table.scattered : Table :=
  { Table.blank "t".toList "s".toList "T".toList default 9 2 with
    cells :=
      .ofList [(⟨.body, 4, 0⟩, .boolean true),
        (⟨.leftLabels, 20, 20⟩, .boolean true)]
    formulas := .ofList [("body[D1:B2]".toList, "=A0".toList),
      ("top_labels[Z30]".toList, "=A0".toList), ("total".toList, "=A0".toList)]
        }

/-- A project with this table only. -/
def Project.board : Project :=
  ⟨[], SortedMap.empty.insert "t".toList Table.scattered⟩

theorem Command.minimizing_least_scattered :
    Project.board.table? Table.scattered.id = some Table.scattered
      ∧ (minimizing Table.scattered).apply Project.board
          = .ok { Project.board with
              tables := Project.board.tables.insert "t".toList
                { Table.scattered with rows := 5, cols := 4 } }
      ∧ Table.scattered.FitsIn 5 4
      ∧ ∀ rows cols, Table.scattered.FitsIn rows cols → 5 ≤ rows
      ∧ 4 ≤ cols := by
  have hfound : Project.board.table? Table.scattered.id
      = some Table.scattered := by decide
  have hneeds : Table.scattered.Needs ⟨.body, 4, 0⟩ :=
    ⟨rfl, Or.inl (by decide)⟩
  have hsize : ((minimizing Table.scattered).apply Project.board).toOption.bind
      (fun q =>
        (q.table? Table.scattered.id).map fun t => (t.rows, t.cols))
        = some (5, 4) := by decide
  obtain ⟨rows, cols, happly, hleast, -, -⟩ := minimizing_least hfound
  rw [happly] at hsize
  simp only [Except.toOption, Option.bind_some, Project.table?,
    SortedMap.get?_insert_eq, if_true, Option.map_some, Option.some.injEq,
    Prod.mk.injEq] at hsize
  obtain ⟨rfl, rfl⟩ := hsize
  exact ⟨hfound, happly, hleast ⟨_, hneeds⟩⟩

end GridScript
