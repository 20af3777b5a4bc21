/-
Columns and their letters, one to one. Letters of either case have a value,
each weighing 26 times the one behind it, and with no digit for zero every
value but zero has exactly one spelling in upper case (`upper_eq_numeral`).
A reader that refuses what leaves a word at any step refuses exactly what
has left it at the end, for a value only grows from letter to letter. So the
letters of every column are read back but for the last index of a word,
whose numeral is the bound itself (`letters_read_back`).
-/
import GridScript.Proofs.Grid.Spelling

namespace GridScript.Column

open Number (wordBound)

-- ================================================================ values

/-- What a letter of either case counts, from 1 to 26. -/
def letterRank (c : Char) : Nat := c.toUpper.toNat - 'A'.toNat + 1

/-- The number that letters spell: each weighs 26 times as much as the one
behind it. -/
def value : Text → Nat
  | [] => 0
  | c :: t => letterRank c * Nat.pow 26 t.length + value t

/-- The text holds letters of either case only, at least one. -/
def IsLetters (t : Text) : Prop := t ≠ [] ∧ ∀ c ∈ t, c.isAlpha = true

theorem value_snoc (t : Text) (c : Char) :
    value (t ++ [c]) = value t * 26 + letterRank c := by
  induction t with
  | nil => simp [value]
  | cons d t ih =>
      have hweight : Nat.pow 26 (t ++ [c]).length
          = Nat.pow 26 t.length * 26 := by
        rw [List.length_append, List.length_singleton]
        rfl
      rw [List.cons_append, value, value, ih, hweight, ← Nat.mul_assoc,
        Nat.add_mul, Nat.add_assoc]

theorem exists_letter {c : Char} (h : c.isAlpha = true) :
    ∃ digit < 26, c.toUpper = letter digit ∧ letterRank c = digit + 1 := by
  refine letterValue?_eq_some_iff.1 ?_
  unfold letterValue? letterRank
  rw [if_pos h]

/-- Letters in upper case are the numeral of their value. -/
theorem upper_eq_numeral {t : Text} (h : ∀ c ∈ t, c.isAlpha = true) :
    Text.upper t = numeral (value t) := by
  induction t using List.reverseRecOn with
  | nil => exact numeral_zero.symm
  | append_singleton t c ih =>
      have ht := ih fun d hd => h d (List.mem_append_left _ hd)
      obtain ⟨digit, hdigit, hupper, hrank⟩ :=
        exists_letter (h c (List.mem_append_right _ List.mem_cons_self))
      calc Text.upper (t ++ [c])
          = Text.upper t ++ [c.toUpper] := List.map_append
        _ = numeral (value t * 26 + digit + 1) := by
          rw [ht, hupper, numeral_snoc _ hdigit]
        _ = numeral (value (t ++ [c])) := by
          rw [value_snoc, hrank, Nat.add_assoc]

theorem value_pos {t : Text} (h : IsLetters t) : 0 < value t := by
  obtain ⟨c, t, rfl⟩ := List.exists_cons_of_ne_nil h.1
  have hrank : 0 < letterRank c := Nat.succ_pos _
  have hweight : 0 < Nat.pow 26 t.length := Nat.pow_pos (by decide)
  exact Nat.add_pos_left (Nat.mul_pos hrank hweight) _

/-- Letters in upper case are those of the column before their value. -/
theorem upper_eq_letters_iff {t : Text} {col : Nat} (h : IsLetters t) :
    Text.upper t = letters col ↔ value t = col + 1 := by
  unfold letters
  rw [upper_eq_numeral h.2]
  exact ⟨numeral_injective, congrArg numeral⟩

/-- What is in upper case the letters of a column are letters. -/
theorem isLetters_of_upper {t : Text} {col : Nat}
    (h : Text.upper t = letters col) :
    IsLetters t := by
  refine ⟨?_, fun c hc => ?_⟩
  · rintro rfl
    exact letters_ne_nil col h.symm
  · rw [← Text.isAlpha_toUpper]
    have hmem : c.toUpper ∈ letters col := by
      rw [← h]
      exact List.mem_map_of_mem hc
    exact (isAlpha_of_mem_letters hmem).1

theorem isLetters_letters (col : Nat) : IsLetters (letters col) :=
  ⟨letters_ne_nil col, fun _ hc => (isAlpha_of_mem_letters hc).1⟩

theorem value_letters (col : Nat) : value (letters col) = col + 1 := by
  have hupper : Text.upper (letters col) = letters col := by
    refine (List.map_congr_left fun c hc => ?_).trans (List.map_id _)
    obtain ⟨digit, hdigit, rfl⟩ := exists_digit_of_mem_numeral hc
    exact (by decide : ∀ digit < 26, (letter digit).toUpper = letter digit)
      digit hdigit
  exact (upper_eq_letters_iff (isLetters_letters col)).1 hupper

-- =============================================================== reading

/-- Letters are read exactly if a word can hold their value. -/
theorem ofLetters?_of_isLetters {t : Text} (h : IsLetters t) :
    ofLetters? t = if value t < wordBound then some (value t - 1)
      else none := by
  have hpos := value_pos h
  split
  case isTrue hlt =>
      exact ofLetters?_eq_some_iff.2
        ⟨(upper_eq_letters_iff h).2 (by omega), by omega⟩
  case isFalse hover =>
      refine Option.eq_none_iff_forall_ne_some.2 fun col hread => ?_
      obtain ⟨hupper, hfits⟩ := ofLetters?_eq_some_iff.1 hread
      rw [(upper_eq_letters_iff h).1 hupper] at hover
      exact hover hfits

/-- Nothing but letters is read. -/
theorem isLetters_of_ofLetters? {t : Text} {col : Nat}
    (h : ofLetters? t = some col) :
    IsLetters t := isLetters_of_upper (ofLetters?_eq_some_iff.1 h).1

/-- The letters of a column are read as the column up to 2^64 - 2; those of
the last index of a word are refused. What is read is a text of letters, and
in upper case it is the letters of the column that it is read as. Nothing is
read exactly of the empty text, of a text with anything but letters in it,
and of letters whose value no word can hold. -/
theorem letters_read_back (col : Nat) (t : Text) :
    ofLetters? (letters col) = (if col + 1 < wordBound then some col else none)
      ∧ (ofLetters? t = some col
          ↔ IsLetters t ∧ letters col = Text.upper t ∧ col + 1 < wordBound)
      ∧ (ofLetters? t = none
          ↔ t = [] ∨ (∃ c ∈ t, c.isAlpha = false)
            ∨ (IsLetters t ∧ wordBound ≤ value t)) := by
  refine ⟨?_, ?_, ?_⟩
  · rw [ofLetters?_of_isLetters (isLetters_letters col), value_letters,
      Nat.add_sub_cancel]
  · constructor
    · intro h
      obtain ⟨hupper, hfits⟩ := ofLetters?_eq_some_iff.1 h
      exact ⟨isLetters_of_ofLetters? h, hupper.symm, hfits⟩
    · rintro ⟨-, hupper, hfits⟩
      exact ofLetters?_eq_some_iff.2 ⟨hupper.symm, hfits⟩
  · by_cases hletters : IsLetters t
    · have hall : ¬∃ c ∈ t, c.isAlpha = false := by
        rintro ⟨c, hc, hother⟩
        rw [hletters.2 c hc] at hother
        cases hother
      simp [ofLetters?_of_isLetters hletters, hletters, hletters.1, hall]
    · have hnone : ofLetters? t = none :=
        Option.eq_none_iff_forall_ne_some.2 fun col h =>
          hletters (isLetters_of_ofLetters? h)
      have hother : t = [] ∨ ∃ c ∈ t, c.isAlpha = false := by
        unfold IsLetters at hletters
        rw [not_and_or, not_not] at hletters
        simpa using hletters
      rw [hnone, ← or_assoc]
      exact iff_of_true rfl (Or.inl hother)

example :
    ofLetters? "gkgwbylwrxtlpo".toList = some 18446744073709551614 := by decide

example : ofLetters? "gkgwbylwrxtlpp".toList = none := by decide

end GridScript.Column
