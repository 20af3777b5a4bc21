/-
Addresses are read back from their text. A reader takes a row and a column
only if a word can hold their numerals (`Fits`), and what fits is written
so that the same is read again. So the text of a target that was read
stands for that target, however the target was spelt
(`Target.parse_text_of_parse`).

The text of an address is cut where it was joined: no region and no label
holds a bracket or a colon, and the letters of a label end where its digits
begin.
-/
import GridScript.Proofs.Except
import GridScript.Proofs.Grid.Column
import GridScript.Proofs.Text.Cuts

namespace GridScript

open Text (Solid Framed)

-- =============================================================== numbers

namespace Number

theorem asWord?_eq_some_iff {n m : Nat} :
    asWord? n = some m ↔ n = m ∧ n < wordBound := by
  unfold asWord?
  split
  case isTrue h => simp [h]
  case isFalse h => simp [h]

theorem asWord?_of_lt {n : Nat} (h : n < wordBound) : asWord? n = some n :=
  asWord?_eq_some_iff.2 ⟨rfl, h⟩

theorem wordAfter_of_lt {n : Nat} (h : n + 1 < wordBound) :
    wordAfter n = n + 1 := Nat.mod_eq_of_lt h

theorem wordAfter_last {n : Nat} (h : n + 1 = wordBound) :
    wordAfter n = 0 := by
  unfold wordAfter
  rw [h, Nat.mod_self]

theorem wordOfDigits?_lt {t : Text} {n : Nat} (h : wordOfDigits? t = some n) :
    n < wordBound := by
  unfold wordOfDigits? at h
  split at h
  next =>
      obtain ⟨rfl, hlt⟩ := asWord?_eq_some_iff.1 h
      exact hlt
  next => cases h

theorem isDigits_decimal (n : Nat) : isDigits (decimal n) = true := by
  unfold isDigits
  rw [Bool.and_eq_true]
  refine ⟨by simpa using decimal_ne_nil n, ?_⟩
  exact List.all_eq_true.2 fun c hc => isDigit_of_mem_decimal hc

/-- A number is read back from its numeral, if a word can hold it. -/
theorem wordOfDigits?_decimal {n : Nat} (h : n < wordBound) :
    wordOfDigits? (decimal n) = some n := by
  have hread : ofDigits 0 (decimal n) = n :=
    Nat.ofDigitChars_toDigits (by decide) (Nat.le_refl 10)
  unfold wordOfDigits?
  rw [if_pos (isDigits_decimal n), hread]
  exact asWord?_of_lt h

end Number

-- =============================================================== columns

namespace Column

open Number (wordBound asWord? asWord?_eq_some_iff asWord?_of_lt)

/-- A letter of a numeral is a letter, and no mark of an address. -/
theorem letter_facts : ∀ digit < 26,
    letterValue? (letter digit) = some (digit + 1)
      ∧ (letter digit).isAlpha = true
      ∧ letter digit ≠ '$' ∧ letter digit ≠ ':' ∧ letter digit ≠ '[' := by
  decide

theorem readLetter?_letter {n digit : Nat} (hdigit : digit < 26)
    (h : n * 26 + digit + 1 < wordBound) :
    readLetter? n (letter digit) = some (n * 26 + digit + 1) := by
  unfold readLetter?
  rw [(letter_facts digit hdigit).1, Option.bind_eq_bind, Option.bind_some,
    asWord?_of_lt (by omega), Option.bind_some]
  exact asWord?_of_lt h

theorem readLetter?_lt {n m : Nat} {c : Char} (h : readLetter? n c = some m) :
    m < wordBound := by
  unfold readLetter? at h
  obtain ⟨digit, -, h⟩ := Option.bind_eq_some_iff.1 h
  obtain ⟨shifted, -, h⟩ := Option.bind_eq_some_iff.1 h
  obtain ⟨rfl, hlt⟩ := asWord?_eq_some_iff.1 h
  exact hlt

theorem foldlM_readLetter?_lt {t : Text} {n m : Nat} (hn : n < wordBound)
    (h : t.foldlM readLetter? n = some m) : m < wordBound := by
  induction t generalizing n with
  | nil =>
      injection h with h
      rwa [← h]
  | cons c t ih =>
      rw [List.foldlM_cons] at h
      obtain ⟨n', hn', h⟩ := Option.bind_eq_some_iff.1 h
      exact ih (readLetter?_lt hn') h

/-- A column that was read has a numeral that a word can hold. -/
theorem ofLetters?_lt {t : Text} {col : Nat} (h : ofLetters? t = some col) :
    col + 1 < wordBound := by
  unfold ofLetters? at h
  obtain ⟨n, hn, h⟩ := Option.bind_eq_some_iff.1 h
  have hlt := foldlM_readLetter?_lt (by decide) hn
  split at h
  next => cases h
  next hzero =>
      injection h with h
      omega

/-- A numeral is read letter by letter, and no number on the way is
larger than the last. -/
theorem foldlM_numeral {n : Nat} (h : n < wordBound) :
    (numeral n).foldlM readLetter? 0 = some n := by
  induction n using numeral.induct with
  | case1 =>
      rw [numeral_zero]
      rfl
  | case2 n hn ih =>
      have hvalue : (n - 1) / 26 * 26 + (n - 1) % 26 + 1 = n := by omega
      rw [numeral_of_pos (Nat.pos_of_ne_zero hn), List.foldlM_append,
        ih (by omega), Option.bind_eq_bind, Option.bind_some, List.foldlM_cons,
        readLetter?_letter (Nat.mod_lt _ (by decide)) (by omega), hvalue]
      rfl

/-- A column is read back from its letters. -/
theorem ofLetters?_letters {col : Nat} (h : col + 1 < wordBound) :
    ofLetters? (letters col) = some col := by
  unfold ofLetters? letters
  rw [foldlM_numeral h, Option.bind_eq_bind, Option.bind_some,
    if_neg (Nat.succ_ne_zero col)]
  rfl

theorem isAlpha_of_mem_letters {col : Nat} {c : Char} (h : c ∈ letters col) :
    c.isAlpha = true ∧ c ≠ '$' ∧ c ≠ ':' ∧ c ≠ '[' := by
  obtain ⟨digit, hdigit, rfl⟩ := exists_digit_of_mem_numeral h
  exact (letter_facts digit hdigit).2

end Column

-- ================================================================ labels

open Number (wordBound)

/-- A word can hold the row and the numeral of the column. -/
def Fits (row col : Nat) : Prop := row < wordBound ∧ col + 1 < wordBound

theorem dropMark_cons {d : Char} (h : d ≠ '$') (t : Text) :
    dropMark (d :: t) = d :: t := by
  unfold dropMark
  split
  next heq =>
      injection heq with heq
      exact absurd heq h
  next => rfl

namespace Cell

variable (c : Cell)

theorem isWordChar_label {d : Char} (h : d ∈ c.label) :
    Text.isWordChar d = true := by
  rcases List.mem_append.1 h with h | h
  · unfold Text.isWordChar Char.isAlphanum
    rw [(Column.isAlpha_of_mem_letters h).1]
    rfl
  · exact Number.isWordChar_of_isDigit (Number.isDigit_of_mem_decimal h)

theorem solid_label : Solid c.label :=
  fun _ hd => Text.isBlank_of_isWordChar (c.isWordChar_label hd)

theorem exists_label : ∃ d rest, c.label = d :: rest ∧ d ≠ '$' := by
  unfold label
  obtain ⟨d, rest, hletters⟩ :=
    List.exists_cons_of_ne_nil (Column.letters_ne_nil c.col)
  have hd : d ∈ Column.letters c.col := by
    rw [hletters]; exact List.mem_cons_self
  exact ⟨d, rest ++ Number.decimal c.row, by rw [hletters]; rfl,
    (Column.isAlpha_of_mem_letters hd).2.1⟩

theorem trim_label : Text.trim c.label = c.label := by
  obtain ⟨d, rest, hlabel, -⟩ := c.exists_label
  exact (c.solid_label.framed (by rw [hlabel]; simp)).trim

/-- A label is cut into what it was made of. -/
theorem cutLabel?_label :
    cutLabel? c.label = some (Column.letters c.col, Number.decimal c.row) := by
  obtain ⟨d, rest, hdecimal⟩ :=
    List.exists_cons_of_ne_nil (Number.decimal_ne_nil c.row)
  have hd : d.isDigit = true :=
    Number.isDigit_of_mem_decimal (n := c.row)
      (by rw [hdecimal]; exact List.mem_cons_self)
  have hmark : d ≠ '$' := by
    rintro rfl
    cases hd
  have hunmarked : dropMark (Number.decimal c.row) = Number.decimal c.row := by
    rw [hdecimal, dropMark_cons hmark]
  -- the row begins with a digit, and there the letters end
  have hstop : ¬d.isAlpha = true := by rw [Text.isAlpha_of_isDigit hd]; decide
  have hletters : ∀ e ∈ Column.letters c.col, e.isAlpha = true := fun e he =>
    (Column.isAlpha_of_mem_letters he).1
  have htake : c.label.takeWhile Char.isAlpha = Column.letters c.col := by
    unfold label
    rw [List.takeWhile_append_of_pos hletters, hdecimal,
      List.takeWhile_cons_of_neg hstop, List.append_nil]
  have hdrop : c.label.dropWhile Char.isAlpha = Number.decimal c.row := by
    unfold label
    rw [List.dropWhile_append_of_pos hletters, hdecimal,
      List.dropWhile_cons_of_neg hstop]
  unfold cutLabel?
  simp only [htake, hdrop, hunmarked]
  rw [if_neg]
  simp [Column.letters_ne_nil, Number.isDigits_decimal]

/-- A label that fits is read back. -/
theorem readLabel?_label (h : Fits c.row c.col) :
    readLabel? c.label = some (c.row, c.col) := by
  have hunmarked : dropMark c.label = c.label := by
    obtain ⟨d, rest, hlabel, hmark⟩ := c.exists_label
    rw [hlabel, dropMark_cons hmark]
  unfold readLabel?
  rw [c.trim_label, hunmarked, c.cutLabel?_label]
  simp only [Option.bind_eq_bind, Option.bind_some]
  rw [Column.ofLetters?_letters h.2, Number.wordOfDigits?_decimal h.1]
  rfl

end Cell

/-- What is read from a label fits. -/
theorem fits_of_readLabel? {t : Text} {row col : Nat}
    (h : readLabel? t = some (row, col)) :
    Fits row col := by
  unfold readLabel? at h
  obtain ⟨⟨letters, digits⟩, -, h⟩ := Option.bind_eq_some_iff.1 h
  obtain ⟨col', hcol, h⟩ := Option.bind_eq_some_iff.1 h
  obtain ⟨row', hrow, h⟩ := Option.bind_eq_some_iff.1 h
  injection h with h
  injection h with hrow' hcol'
  subst hrow' hcol'
  exact ⟨Number.wordOfDigits?_lt hrow, Column.ofLetters?_lt hcol⟩

-- ============================================================= addresses

theorem Region.facts (r : Region) :
    Region.ofName? r.name = some r ∧ '[' ∉ r.name ∧ Framed r.name := by
  have hsolid : Solid r.name := by cases r <;> decide
  have hne : r.name ≠ [] := by cases r <;> decide
  refine ⟨?_, ?_, hsolid.framed hne⟩ <;> cases r <;> decide

/-- Brackets are taken off again. -/
theorem cutRegion_brackets (r : Region) (inner : Text) :
    cutRegion (r.name ++ '[' :: inner ++ [']']) = .ok (r, inner) := by
  obtain ⟨hname, hbracket, hframed⟩ := r.facts
  have hclosing : Framed [']'] :=
    ⟨⟨']', [], rfl, by decide⟩, ']', rfl, by decide⟩
  unfold cutRegion
  simp only [(hframed.append hclosing ('[' :: inner)).trim]
  rw [List.append_assoc, List.cons_append, Text.cutAtFirst?_append hbracket]
  simp only [Text.beforeLast?_snoc, hname]

/-- Cells are told apart by their texts, whether or not they fit. -/
theorem Cell.text_injective {a b : Cell} (h : a.text = b.text) : a = b := by
  have hcut : cutRegion a.text = cutRegion b.text := by rw [h]
  unfold text at hcut
  rw [cutRegion_brackets, cutRegion_brackets] at hcut
  injection hcut with hcut
  injection hcut with hregion hlabel
  have hparts : cutLabel? a.label = cutLabel? b.label := by rw [hlabel]
  rw [a.cutLabel?_label, b.cutLabel?_label] at hparts
  injection hparts with hparts
  injection hparts with hletters hdigits
  have hcol : a.col + 1 = b.col + 1 :=
    Column.lower_numeral_injective (congrArg Text.lower hletters)
  have hrow : a.row = b.row := Number.decimal_injective hdigits
  obtain ⟨_, _, _⟩ := a
  obtain ⟨_, _, _⟩ := b
  simp only at hregion hrow hcol
  rw [hregion, hrow, Nat.succ.inj hcol]

/-- A cell that fits is read back from its text. -/
theorem Cell.parse_text {c : Cell} (h : Fits c.row c.col) :
    Cell.parse c.text = .ok c := by
  unfold Cell.parse Cell.text
  rw [cutRegion_brackets]
  simp only [bind, Except.bind, c.readLabel?_label h, orInvalid]
  rfl

theorem Cell.colon_not_mem_label (c : Cell) : ':' ∉ c.label := fun h => by
  cases c.isWordChar_label h

theorem CellRange.parse_cell {c : Cell} (h : Fits c.row c.col) :
    CellRange.parse c.text
      = .ok (.ofCorners c.region (c.row, c.col) (c.row, c.col)) := by
  unfold CellRange.parse Cell.text
  rw [cutRegion_brackets]
  simp only [bind, Except.bind,
    Text.cutAtFirst?_of_not_mem c.colon_not_mem_label, c.readLabel?_label h,
    orInvalid]
  rfl

theorem CellRange.ofCorners_self (r : CellRange) :
    ofCorners r.region (r.startRow, r.startCol) (r.endRow, r.endCol) = r := by
  have hrows := r.rows_le
  have hcols := r.cols_le
  cases r
  simp only at hrows hcols
  unfold ofCorners
  simp only [Nat.min_eq_left hrows, Nat.min_eq_left hcols,
    Nat.max_eq_right hrows, Nat.max_eq_right hcols]

theorem CellRange.parse_text {r : CellRange} (hmany : r.isSingle = false)
    (hstart : Fits r.startRow r.startCol) (hstop : Fits r.endRow r.endCol) :
    CellRange.parse r.text = .ok r := by
  have hbrackets : r.text = r.region.name
      ++ '[' :: (r.start.label ++ ':' :: r.stop.label) ++ [']'] := by
    unfold CellRange.text
    rw [hmany]
    simp
  have hstart' : readLabel? r.start.label = some (r.startRow, r.startCol) :=
    r.start.readLabel?_label hstart
  have hstop' : readLabel? r.stop.label = some (r.endRow, r.endCol) :=
    r.stop.readLabel?_label hstop
  unfold CellRange.parse
  rw [hbrackets, cutRegion_brackets]
  simp only [bind, Except.bind,
    Text.cutAtFirst?_append r.start.colon_not_mem_label, hstart', hstop',
    orInvalid]
  exact congrArg Except.ok r.ofCorners_self

-- =============================================================== targets

namespace Target

/-- The cells of the target's corners fit, and a range has more than one
cell. -/
def Readable : Target → Prop
  | cell c => Fits c.row c.col
  | range r =>
      r.isSingle = false ∧ Fits r.startRow r.startCol ∧ Fits r.endRow r.endCol

/-- A readable target is read back from its text. -/
theorem parse_text {target : Target} (h : target.Readable) :
    parse target.text = .ok target := by
  cases target with
  | cell c =>
      show (do
        let range ← CellRange.parse c.text
        return if range.isSingle then cell range.start else .range range) = _
      rw [CellRange.parse_cell h]
      simp [bind, Except.bind, CellRange.ofCorners, CellRange.isSingle,
        CellRange.start]
      rfl
  | range r =>
      obtain ⟨hmany, hstart, hstop⟩ := h
      show (do
        let range ← CellRange.parse r.text
        return if range.isSingle then cell range.start else .range range) = _
      rw [CellRange.parse_text hmany hstart hstop]
      simp [bind, Except.bind, hmany]
      rfl

end Target

/-- Corners that fit make a range whose corners fit. -/
theorem CellRange.fits_ofCorners (region : Region) {a b : Nat × Nat}
    (ha : Fits a.1 a.2) (hb : Fits b.1 b.2) :
    Fits (ofCorners region a b).startRow (ofCorners region a b).startCol
      ∧ Fits (ofCorners region a b).endRow (ofCorners region a b).endCol := by
  unfold Fits ofCorners at *
  simp only
  omega

theorem fits_of_orInvalid {input t : Text} {a : Nat × Nat}
    (h : orInvalid input (readLabel? t) = .ok a) : Fits a.1 a.2 := by
  unfold orInvalid at h
  split at h
  next b hread =>
      injection h with h
      rw [← h]
      exact fits_of_readLabel? hread
  next => cases h

theorem Cell.fits_of_parse {input : Text} {c : Cell}
    (h : Cell.parse input = .ok c) :
    Fits c.row c.col := by
  unfold Cell.parse at h
  obtain ⟨⟨region, inner⟩, -, h⟩ := exists_of_bind_eq_ok h
  obtain ⟨⟨row, col⟩, hread, h⟩ := exists_of_bind_eq_ok h
  cases h
  exact fits_of_orInvalid hread

/-- The corners of a range that was read fit. -/
theorem CellRange.fits_of_parse {input : Text} {r : CellRange}
    (h : CellRange.parse input = .ok r) :
    Fits r.startRow r.startCol ∧ Fits r.endRow r.endCol := by
  unfold CellRange.parse at h
  obtain ⟨⟨region, inner⟩, -, h⟩ := exists_of_bind_eq_ok h
  simp only at h
  split at h
  next a b _ =>
      obtain ⟨a', ha, h⟩ := exists_of_bind_eq_ok h
      obtain ⟨b', hb, h⟩ := exists_of_bind_eq_ok h
      injection h with h
      rw [← h]
      exact fits_ofCorners region (fits_of_orInvalid ha) (fits_of_orInvalid hb)
  next =>
      obtain ⟨a', ha, h⟩ := exists_of_bind_eq_ok h
      injection h with h
      rw [← h]
      exact fits_ofCorners region (fits_of_orInvalid ha) (fits_of_orInvalid ha)

namespace Target

theorem readable_of_parse {input : Text} {target : Target}
    (h : parse input = .ok target) :
    target.Readable := by
  unfold parse at h
  obtain ⟨r, hr, h⟩ := exists_of_bind_eq_ok h
  obtain ⟨hstart, hstop⟩ := CellRange.fits_of_parse hr
  injection h with h
  rw [← h]
  cases hsingle : r.isSingle with
  | true => exact hstart
  | false => exact ⟨hsingle, hstart, hstop⟩

/-- The text of a target that was read stands for that target. -/
theorem parse_text_of_parse {input : Text} {target : Target}
    (h : parse input = .ok target) :
    parse target.text = .ok target :=
  parse_text (readable_of_parse h)

end Target

end GridScript
