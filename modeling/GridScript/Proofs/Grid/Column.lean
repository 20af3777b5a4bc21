/-
The names of cells. Column letters are a numeral without a zero, so every
column has its own (`letters_injective`); in lower case, with the digits of
the row behind them, they are the name that a script assigns, and a cell's
place can be told from it (`cellName_injective`): the letters end where the
digits begin.
-/
import GridScript.Grid.Address
import GridScript.Proofs.Value.Literal

namespace GridScript

open Text (IsWord Solid Unbroken)

namespace Column

-- =============================================================== letters

/-- A letter in lower case is a letter, and tells its digit. -/
theorem toLower_letter : ∀ digit < 26,
    (letter digit).toLower.isAlpha = true
      ∧ (letter digit).toLower.isDigit = false
      ∧ (letter digit).toLower.toNat = 97 + digit
      ∧ Text.isBlank (letter digit) = false := by
  decide

theorem numeral_zero : numeral 0 = [] := by
  rw [numeral]
  rfl

theorem numeral_of_pos {n : Nat} (h : 0 < n) :
    numeral n = numeral ((n - 1) / 26) ++ [letter ((n - 1) % 26)] := by
  rw [numeral, if_neg (Nat.ne_of_gt h)]

/-- A numeral is made of letters of digits. -/
theorem exists_digit_of_mem_numeral {n : Nat} {c : Char} (h : c ∈ numeral n) :
    ∃ digit < 26, c = letter digit := by
  induction n using numeral.induct with
  | case1 =>
      rw [numeral_zero] at h
      cases h
  | case2 n hn ih =>
      rw [numeral_of_pos (Nat.pos_of_ne_zero hn)] at h
      rcases List.mem_append.1 h with h | h
      · exact ih h
      · exact ⟨_, Nat.mod_lt _ (by decide), List.mem_singleton.1 h⟩

theorem letters_ne_nil (col : Nat) : letters col ≠ [] := by
  unfold letters
  rw [numeral_of_pos (Nat.succ_pos col)]
  simp

/-- The letters of columns, in lower case, are told apart. -/
theorem lower_numeral_injective {m n : Nat}
    (h : Text.lower (numeral m) = Text.lower (numeral n)) :
    m = n := by
  unfold Text.lower at h
  induction m using numeral.induct generalizing n with
  | case1 =>
      rw [numeral_zero] at h
      cases n with
      | zero => rfl
      | succ n =>
          rw [numeral_of_pos (Nat.succ_pos n), List.map_append] at h
          cases (List.append_eq_nil_iff.1 h.symm).2
  | case2 m hm ih =>
      have hpos := Nat.pos_of_ne_zero hm
      cases n with
      | zero =>
          rw [numeral_zero, numeral_of_pos hpos, List.map_append] at h
          cases (List.append_eq_nil_iff.1 h).2
      | succ n =>
          rw [numeral_of_pos hpos, numeral_of_pos (Nat.succ_pos n),
            List.map_append, List.map_append] at h
          -- the last letters agree, and so do the numerals in front
          obtain ⟨hhigh, hlow⟩ := List.append_inj' h rfl
          have hquotient := ih hhigh
          have hletter := congrArg Char.toNat (List.singleton_inj.1 hlow)
          rw [(toLower_letter _ (Nat.mod_lt _ (by decide))).2.2.1,
            (toLower_letter _ (Nat.mod_lt _ (by decide))).2.2.1] at hletter
          omega

-- ============================================================ cell names

theorem lower_letters {col : Nat} {c : Char}
    (h : c ∈ Text.lower (letters col)) :
    c.isAlpha = true ∧ c.isDigit = false := by
  obtain ⟨d, hd, rfl⟩ := List.mem_map.1 h
  obtain ⟨digit, hlt, rfl⟩ := exists_digit_of_mem_numeral hd
  obtain ⟨halpha, hdigit, -⟩ := toLower_letter digit hlt
  exact ⟨halpha, hdigit⟩

/-- The name of a cell is a word. -/
theorem isWord_cellName (row col : Nat) : IsWord (cellName row col) := by
  unfold cellName
  have hdigits : ∀ c ∈ Number.decimal row, Text.isWordChar c = true :=
    fun c hc =>
      Number.isWordChar_of_isDigit (Number.isDigit_of_mem_decimal hc)
  cases hletters : Text.lower (letters col) with
  | nil => exact absurd (List.map_eq_nil_iff.1 hletters) (letters_ne_nil col)
  | cons c rest =>
      have hstart : ∀ d ∈ c :: rest, Text.isWordStart d = true := by
        intro d hd
        rw [← hletters] at hd
        unfold Text.isWordStart
        rw [(lower_letters hd).1]
        rfl
      refine ⟨hstart c List.mem_cons_self, ?_⟩
      intro d hd
      rcases List.mem_append.1 hd with hd | hd
      · exact Text.isWordChar_of_isWordStart
          (hstart d (List.mem_cons_of_mem c hd))
      · exact hdigits d hd

/-- The digits of a name begin where its letters end. -/
theorem takeWhile_cellName (row col : Nat) :
    (cellName row col).takeWhile (fun c => !c.isDigit)
      = Text.lower (letters col) := by
  unfold cellName
  rw [List.takeWhile_append_of_pos
    fun c hc => by rw [(lower_letters hc).2]; rfl]
  cases hdigits : Number.decimal row with
  | nil => exact absurd hdigits (Number.decimal_ne_nil row)
  | cons c rest =>
      have hc : c.isDigit = true :=
        Number.isDigit_of_mem_decimal (n := row) (by rw [hdigits]; simp)
      rw [List.takeWhile_cons_of_neg (by rw [hc]; decide), List.append_nil]

/-- A cell's place can be told from its name. -/
theorem cellName_injective {row col row' col' : Nat}
    (h : cellName row col = cellName row' col') : row = row' ∧ col = col' := by
  have hletters := congrArg (List.takeWhile fun c => !c.isDigit) h
  rw [takeWhile_cellName, takeWhile_cellName] at hletters
  have hcol : col + 1 = col' + 1 := lower_numeral_injective hletters
  have hdecimal : Number.decimal row = Number.decimal row' := by
    unfold cellName at h
    rw [hletters] at h
    exact List.append_cancel_left h
  refine ⟨?_, by omega⟩
  exact Number.decimal_injective hdecimal

end Column

namespace Cell

theorem isWord_ident (c : Cell) : IsWord c.ident :=
  Column.isWord_cellName c.row c.col

/-- Cells of one region are told apart by their names. -/
theorem ident_injective {a b : Cell} (hregion : a.region = b.region)
    (h : a.ident = b.ident) :
    a = b := by
  obtain ⟨hrow, hcol⟩ := Column.cellName_injective h
  obtain ⟨_, _, _⟩ := a
  obtain ⟨_, _, _⟩ := b
  simp only at hregion hrow hcol
  rw [hregion, hrow, hcol]

end Cell

end GridScript
