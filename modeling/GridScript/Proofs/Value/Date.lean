/-
Dates and times of day are read back from their texts. A field of known
width is read up to that width, so what stands behind it does not matter; a
year of more than four digits is written with a sign and ends at the dash.
Whatever text a time is read from, it is one of a single day.
-/
import GridScript.Proofs.Number.Decimal

namespace GridScript

open Number (decimalPadded ofDigits_decimalPadded isDigit_of_mem_decimalPadded
  decimalPadded_ne_nil length_decimalPadded)
open Text (Solid)

-- ================================================================ fields

section Fields

variable {digits rest : Text}

theorem trimStart_digits (hne : digits ≠ [])
    (hdigits : ∀ c ∈ digits, c.isDigit = true) :
    Text.trimStart (digits ++ rest) = digits ++ rest := by
  obtain ⟨c, digits, rfl⟩ := List.exists_cons_of_ne_nil hne
  exact Text.trimStart_of_head
    (Text.isBlank_of_isWordChar
      (Number.isWordChar_of_isDigit (hdigits c List.mem_cons_self)))

/-- A field as wide as its digits is read whatever comes behind it. -/
theorem readField?_exact (hne : digits ≠ [])
    (hdigits : ∀ c ∈ digits, c.isDigit = true) :
    readField? (some digits.length) (digits ++ rest)
      = some (Number.ofDigits 0 digits, rest) := by
  have htake : ((digits ++ rest).takeWhile Char.isDigit).take digits.length
      = digits := by
    rw [List.takeWhile_append_of_pos hdigits, List.take_left]
  unfold readField?
  simp only [trimStart_digits hne hdigits, htake, List.drop_left]
  simp [hne]

/-- A field of any width ends in front of what is no digit. -/
theorem readField?_all (hne : digits ≠ [])
    (hdigits : ∀ c ∈ digits, c.isDigit = true) {d : Char}
    (hd : d.isDigit = false) :
    readField? none (digits ++ d :: rest)
      = some (Number.ofDigits 0 digits, d :: rest) := by
  have htake : (digits ++ d :: rest).takeWhile Char.isDigit = digits := by
    rw [List.takeWhile_append_of_pos hdigits,
      List.takeWhile_cons_of_neg (by simp [hd]), List.append_nil]
  unfold readField?
  simp only [trimStart_digits hne hdigits, htake, List.drop_left]
  simp [hne]

theorem readField?_padded {width n : Nat} (hwidth : 0 < width)
    (h : n < Number.tenTo width) :
    readField? (some width) (decimalPadded width n ++ rest)
      = some (n, rest) := by
  have hread : readField? (some (decimalPadded width n).length)
      (decimalPadded width n ++ rest)
      = some (Number.ofDigits 0 (decimalPadded width n), rest) :=
    readField?_exact (decimalPadded_ne_nil width n) fun _ =>
      isDigit_of_mem_decimalPadded
  rwa [length_decimalPadded hwidth h, ofDigits_decimalPadded] at hread

end Fields

-- ================================================================= dates

theorem solid_padded {width n : Nat} : Solid (decimalPadded width n) :=
  fun _ hc =>
    Text.isBlank_of_isWordChar
      (Number.isWordChar_of_isDigit (isDigit_of_mem_decimalPadded hc))

theorem exists_digit_padded (width n : Nat) :
    ∃ c rest, decimalPadded width n = c :: rest ∧ c.isDigit = true := by
  obtain ⟨c, rest, hpadded⟩ :=
    List.exists_cons_of_ne_nil (decimalPadded_ne_nil width n)
  exact ⟨c, rest, hpadded,
    isDigit_of_mem_decimalPadded (hpadded ▸ List.mem_cons_self)⟩

theorem isDay_bounds {year : Int} {month day : Nat}
    (h : isDay year month day = true) :
    month < 100 ∧ day < 100 := by
  simp only [isDay, Bool.and_eq_true, decide_eq_true_eq] at h
  obtain ⟨⟨-, hfirst⟩, hlast⟩ := h
  unfold daysInMonth at hlast
  split at hlast
  case h_1 => split at hlast <;> omega
  all_goals omega

namespace Date

theorem solid_yearText (year : Int) : Solid (yearText year) := by
  unfold yearText
  simp only
  split
  case isTrue => exact Text.solid_cons.2 ⟨by decide, solid_padded⟩
  case isFalse =>
      split
      case isTrue => exact Text.solid_cons.2 ⟨by decide, solid_padded⟩
      case isFalse => exact solid_padded

/-- A year is read back, with what stands behind its dash. -/
theorem readYear?_yearText (year : Int) (rest : Text) :
    readYear? (yearText year ++ '-' :: rest) = some (year, '-' :: rest) := by
  obtain ⟨c, digits, hpadded, hc⟩ := exists_digit_padded 4 year.natAbs
  have hall : readField? none (c :: (digits ++ '-' :: rest))
      = some (year.natAbs, '-' :: rest) := by
    have hread : readField? none (decimalPadded 4 year.natAbs ++ '-' :: rest)
        = some
          (Number.ofDigits 0 (decimalPadded 4 year.natAbs), '-' :: rest) :=
      readField?_all (decimalPadded_ne_nil 4 year.natAbs)
        (fun _ => isDigit_of_mem_decimalPadded) rfl
    rwa [ofDigits_decimalPadded, hpadded] at hread
  have hsign : ((c :: (digits ++ '-' :: rest)).head?.map Char.isDigit).getD
      false = true := hc
  unfold yearText
  simp only
  split
  case isTrue hnegative =>
      have hvalue : -((year.natAbs : Nat) : Int) = year := by omega
      unfold readYear?
      rw [hpadded, List.cons_append, Text.trimStart_of_head (by decide)]
      simp only [List.cons_append, hsign, if_true, hall,
        Option.map_some, hvalue]
  case isFalse hnegative =>
      have hvalue : ((year.natAbs : Nat) : Int) = year := by omega
      split
      case isTrue hlong =>
          unfold readYear?
          rw [hpadded, List.cons_append, Text.trimStart_of_head (by decide)]
          simp only [List.cons_append, hsign, if_true, hall,
            Option.map_some, hvalue]
      case isFalse hshort =>
          have hfour : year.natAbs < 10000 := by omega
          have hfield : readField? (some 4)
              (decimalPadded 4 year.natAbs ++ '-' :: rest)
              = some (year.natAbs, '-' :: rest) :=
                readField?_padded (by decide) hfour
          unfold readYear?
          rw [trimStart_digits (decimalPadded_ne_nil 4 _) fun _ =>
            isDigit_of_mem_decimalPadded]
          -- the first character is a digit, and so no sign
          split
          next heq =>
              rw [hpadded] at heq
              injection heq with heq
              rw [heq] at hc
              cases hc
          next heq =>
              rw [hpadded] at heq
              injection heq with heq
              rw [heq] at hc
              cases hc
          next => simp only [hfield, Option.map_some, hvalue]

/-- A date is read back from its text. -/
theorem parse?_text (d : Date) : parse? d.text = some d := by
  obtain ⟨year, month, day, hday⟩ := d
  obtain ⟨hmonth, hdays⟩ := isDay_bounds hday
  have hmonthField : ∀ rest,
      readField? (some 2) (decimalPadded 2 month ++ rest)
      = some (month, rest) := fun rest => readField?_padded (by decide) hmonth
  have hdayField : readField? (some 2) (decimalPadded 2 day)
      = some (day, []) := by
    have hread : readField? (some 2) (decimalPadded 2 day ++ [])
        = some (day, []) :=
      readField?_padded (by decide) hdays
    rwa [List.append_nil] at hread
  have hsolid : Solid (text ⟨year, month, day, hday⟩) := by
    unfold text
    simp only [Text.solid_append, Text.solid_cons]
    exact ⟨⟨solid_yearText
      year, by decide, solid_padded⟩, by decide, solid_padded⟩
  have hne : text ⟨year, month, day, hday⟩ ≠ [] := by
    simp [text]
  have hdash : ∀ rest, expect? '-' ('-' :: rest) = some rest := fun rest => rfl
  unfold parse?
  rw [(hsolid.framed hne).trim, text, List.append_assoc, List.cons_append]
  simp only [Option.bind_eq_bind, readYear?_yearText, hdash, Option.bind_some,
    hmonthField, hdayField]
  exact dif_pos hday

end Date

-- ========================================================== times of day

namespace TimeOfDay

theorem readPart?_padded {last n : Nat} (hn : n < 100) (h : n ≤ last)
    (rest : Text) :
    readPart? last (decimalPadded 2 n ++ rest) = some (n, rest) := by
  unfold readPart?
  rw [readField?_padded (by decide) hn, Option.bind_eq_bind, Option.bind_some]
  simp only
  rw [if_pos h]
  rfl

/-- A time of a day is read back from its text. -/
theorem parse?_text {seconds : Nat} (h : seconds < secondsPerDay) :
    parse? (text seconds) = some seconds := by
  have hday : seconds < 86400 := h
  have hsolid : Solid (text seconds) := by
    unfold text
    simp only [Text.solid_append, Text.solid_cons]
    exact ⟨⟨solid_padded, by decide, solid_padded⟩, by decide, solid_padded⟩
  have hne : text seconds ≠ [] := by simp [text]
  have hcolon : ∀ rest, expect? ':' (':' :: rest) = some rest :=
    fun rest => rfl
  have hseconds : readSeconds? (':' :: decimalPadded 2 (seconds % 60))
      = some (seconds % 60) := by
    have hpart : readPart? 60 (decimalPadded 2 (seconds % 60) ++ [])
        = some (seconds % 60, []) :=
      readPart?_padded (by omega) (by omega) []
    rw [List.append_nil] at hpart
    unfold readSeconds?
    simp only [hcolon, Option.bind_eq_bind, Option.bind_some, hpart,
      List.isEmpty_nil, if_true]
    rw [Nat.min_eq_left (by omega)]
    rfl
  have hhours : ∀ rest, readPart? 23 (decimalPadded 2 (seconds / 3600) ++ rest)
      = some (seconds / 3600, rest) := readPart?_padded (by omega) (by omega)
  have hminutes : ∀ rest,
      readPart? 59 (decimalPadded 2 (seconds / 60 % 60) ++ rest)
      = some (seconds / 60 % 60, rest) :=
        readPart?_padded (by omega) (by omega)
  have hvalue : seconds / 3600 * 3600 + seconds / 60 % 60 * 60 + seconds % 60
      = seconds := by omega
  unfold parse?
  rw [(hsolid.framed hne).trim, text]
  simp only [secondsPerDay, Nat.mod_eq_of_lt hday]
  rw [List.append_assoc, List.cons_append]
  simp only [Option.bind_eq_bind, hhours, hcolon, Option.bind_some, hminutes,
    List.isEmpty_cons, Bool.false_eq_true, if_false, hseconds, hvalue]
  rfl

theorem le_of_readPart? {last n : Nat} {t rest : Text}
    (h : readPart? last t = some (n, rest)) :
    n ≤ last := by
  unfold readPart? at h
  obtain ⟨⟨n', rest'⟩, -, h⟩ := Option.bind_eq_some_iff.1 h
  simp only at h
  split at h
  next hle =>
      cases h
      exact hle
  next => cases h

theorem le_of_readSeconds? {seconds : Nat} {t : Text}
    (h : readSeconds? t = some seconds) :
    seconds ≤ 59 := by
  unfold readSeconds? at h
  obtain ⟨t', -, h⟩ := Option.bind_eq_some_iff.1 h
  obtain ⟨⟨n, rest⟩, -, h⟩ := Option.bind_eq_some_iff.1 h
  simp only at h
  split at h
  next =>
      cases h
      exact Nat.min_le_right ..
  next => cases h

/-- A time that is read is one of a day. -/
theorem lt_of_parse? {t : Text} {seconds : Nat} (h : parse? t = some seconds) :
    seconds < secondsPerDay := by
  unfold parse? at h
  obtain ⟨⟨hours, t₁⟩, hhours, h⟩ := Option.bind_eq_some_iff.1 h
  obtain ⟨t₂, -, h⟩ := Option.bind_eq_some_iff.1 h
  obtain ⟨⟨minutes, t₃⟩, hminutes, h⟩ := Option.bind_eq_some_iff.1 h
  have hhours := le_of_readPart? hhours
  have hminutes := le_of_readPart? hminutes
  simp only at h
  unfold secondsPerDay
  split at h
  next =>
      cases h
      omega
  next =>
      obtain ⟨last, hlast, h⟩ := Option.bind_eq_some_iff.1 h
      have hlast := le_of_readSeconds? hlast
      cases h
      omega

end TimeOfDay

end GridScript
