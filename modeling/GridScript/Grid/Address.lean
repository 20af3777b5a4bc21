/-
Addresses in a table. A cell is written `region[A0]`, a range
`region[A0:C2]`; without a region the body is meant. Spellings are many
(either case, `$` marks, leading zeros, corners in any order, blanks
around the parts) and the text of an address is one of them, the same for
all spellings of one address.

A formula belongs to a target, which is a cell or a range of more than
one cell; a range of one cell is read as the cell.
-/
import GridScript.Grid.Column
import GridScript.Grid.Region
import GridScript.SortedMap

namespace GridScript

-- ======================================================== refusals

/-- Why a text is no address. -/
inductive AddressError where
  /-- The text has not the form of an address. -/
  | invalid (input : Text)
  /-- The text has the form, but there is no such region. -/
  | unknownRegion (name : Text)
  deriving DecidableEq

/-- The wording of a refusal. -/
def AddressError.message : AddressError → Text
  | invalid input => "Invalid cell address: ".toList ++ input
  | unknownRegion name => "Unknown region: ".toList ++ name

-- ======================================================== cells

/-- One cell: a region, and a row and column in it. -/
structure Cell where
  region : Region
  row : Nat
  col : Nat
  deriving DecidableEq

namespace Cell

instance : Inhabited Cell := ⟨⟨.body, 0, 0⟩⟩

/-- Cells are ordered by region, then row, then column. -/
instance : Ord Cell where
  compare := compareLex (compareOn fun c : Cell => c.region.index)
    (compareLex (compareOn Cell.row) (compareOn Cell.col))

instance : Std.TransOrd Cell :=
  inferInstanceAs
    (Std.TransCmp (compareLex (compareOn fun c : Cell => c.region.index)
      (compareLex (compareOn Cell.row) (compareOn Cell.col))))

instance : Std.LawfulEqOrd Cell where
  eq_of_compare {a b} h := by
    have h : compareLex (compareOn fun c : Cell => c.region.index)
      (compareLex (compareOn Cell.row) (compareOn Cell.col)) a b = .eq := h
    simp only [compareLex_eq_eq, compareOn, Std.compare_eq_iff_eq] at h
    obtain ⟨hregion, hrow, hcol⟩ := h
    have hregion := Region.index_injective hregion
    cases a; cases b
    simp_all

/-- The label without the region: `A0`. -/
def label (c : Cell) : Text := Column.letters c.col ++ Number.decimal c.row

/-- The name inside a block of the region: `a0`. -/
def ident (c : Cell) : Text := Column.cellName c.row c.col

/-- The address: `body[A0]`. -/
def text (c : Cell) : Text := c.region.name ++ '[' :: c.label ++ [']']

end Cell

-- ======================================================== cell labels

/-- Drops one `$`. -/
def dropMark : Text → Text
  | '$' :: t => t
  | t => t

/-- A label cut into its letters and digits, if it has both and nothing
else. -/
def cutLabel? (t : Text) : Option (Text × Text) :=
  let letters := t.takeWhile Char.isAlpha
  let digits := dropMark (t.dropWhile Char.isAlpha)
  if letters.isEmpty || !Number.isDigits digits then none
  else some (letters, digits)

/-- The row and column of a label such as `A0` or `$A$0`. -/
def readLabel? (t : Text) : Option (Nat × Nat) := do
  let (letters, digits) ← cutLabel? (dropMark (Text.trim t))
  let col ← Column.ofLetters? letters
  let row ← Number.wordOfDigits? digits
  return (row, col)

/-- Is the text letters followed by digits? Such a name is a cell in a
formula, whether or not its row and column are too large to be one. -/
def isCellName (t : Text) : Bool :=
  let letters := t.takeWhile Char.isAlpha
  !letters.isEmpty && Number.isDigits (t.dropWhile Char.isAlpha)

-- ======================================================== ranges

/-- A rectangle of cells in one region, given by its corners. -/
structure CellRange where
  region : Region
  startRow : Nat
  startCol : Nat
  endRow : Nat
  endCol : Nat
  rows_le : startRow ≤ endRow
  cols_le : startCol ≤ endCol
  deriving DecidableEq

namespace CellRange

/-- The range with two opposite corners, each a row and a column. -/
def ofCorners (region : Region) (a b : Nat × Nat) : CellRange where
  region := region
  startRow := min a.1 b.1
  startCol := min a.2 b.2
  endRow := max a.1 b.1
  endCol := max a.2 b.2
  rows_le := by omega
  cols_le := by omega

/-- Has the range one cell? -/
def isSingle (r : CellRange) : Bool :=
  r.startRow == r.endRow && r.startCol == r.endCol

/-- How many rows the range has. -/
def rows (r : CellRange) : Nat := r.endRow - r.startRow + 1

/-- How many columns the range has. -/
def cols (r : CellRange) : Nat := r.endCol - r.startCol + 1

/-- The upper left corner. -/
def start (r : CellRange) : Cell := ⟨r.region, r.startRow, r.startCol⟩

/-- The lower right corner. -/
def stop (r : CellRange) : Cell := ⟨r.region, r.endRow, r.endCol⟩

/-- Does the cell lie in the range? -/
def contains (r : CellRange) (c : Cell) : Bool :=
  c.region == r.region && decide (r.startRow ≤ c.row)
    && decide (c.row ≤ r.endRow) &&
    decide (r.startCol ≤ c.col) && decide (c.col ≤ r.endCol)

/-- The cells, row by row. -/
def cells (r : CellRange) : List Cell :=
  (List.range r.rows).flatMap fun i =>
    (List.range r.cols).map fun j => ⟨r.region, r.startRow + i, r.startCol + j⟩

/-- The address: `body[A0:C2]`, or that of the cell if there is but one. -/
def text (r : CellRange) : Text :=
  if r.isSingle then r.start.text
  else r.region.name ++ '[' :: r.start.label ++ ':' :: r.stop.label ++ [']']

end CellRange

-- ======================================================== reading

/-- An address cut into its region and what the brackets hold. -/
def cutRegion (input : Text) : Except AddressError (Region × Text) :=
  let trimmed := Text.trim input
  match Text.cutAtFirst? '[' trimmed with
  | none => .ok (.body, trimmed)
  | some (name, rest) =>
    match Text.beforeLast? ']' rest with
    | none => .error (.invalid input)
    | some inner =>
      match Region.ofName? name with
      | none => .error (.unknownRegion (Text.trim name))
      | some region => .ok (region, inner)

/-- The value, or the refusal that the input is no address. -/
def orInvalid {α : Type} (input : Text) : Option α → Except AddressError α
  | some a => .ok a
  | none => .error (.invalid input)

/-- Reads the address of a cell. -/
def Cell.parse (input : Text) : Except AddressError Cell := do
  let (region, inner) ← cutRegion input
  let (row, col) ← orInvalid input (readLabel? inner)
  return ⟨region, row, col⟩

/-- Reads the address of a range, of which a cell is one. -/
def CellRange.parse (input : Text) : Except AddressError CellRange := do
  let (region, inner) ← cutRegion input
  match Text.cutAtFirst? ':' inner with
  | some (a, b) =>
    let a ← orInvalid input (readLabel? a)
    let b ← orInvalid input (readLabel? b)
    return .ofCorners region a b
  | none =>
    let a ← orInvalid input (readLabel? inner)
    return .ofCorners region a a

-- ======================================================== targets

/-- What a formula is set on. -/
inductive Target where
  | cell (c : Cell)
  | range (r : CellRange)
  deriving DecidableEq

namespace Target

/-- Reads a target. A range of one cell is that cell. -/
def parse (input : Text) : Except AddressError Target := do
  let range ← CellRange.parse input
  return if range.isSingle then cell range.start else .range range

/-- The region that the target lies in. -/
def region : Target → Region
  | cell c => c.region
  | range r => r.region

/-- The address. -/
def text : Target → Text
  | cell c => c.text
  | range r => r.text

end Target

end GridScript
