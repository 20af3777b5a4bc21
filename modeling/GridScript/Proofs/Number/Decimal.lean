/-
The digits of a numeral. They are read as the number they were written for,
with or without zeros in front of them.
-/
import GridScript.Proofs.Value.Literal

namespace GridScript.Number

/-- Only zero is written with a zero in front. -/
theorem head_decimal {n : Nat} (h : n ≠ 0) : (decimal n).head? ≠ some '0' := by
  unfold decimal
  induction n using Nat.strongRecOn with
  | ind n ih =>
      by_cases hsmall : n < 10
      · have hdigit : ∀ m < 10, m ≠ 0 →
            (Nat.toDigits 10 m).head? ≠ some '0' := by decide
        exact hdigit n hsmall h
      · have hlarge : 10 ≤ n := Nat.le_of_not_lt hsmall
        obtain ⟨c, rest, hdigits⟩ :=
          List.exists_cons_of_ne_nil
            (Nat.toDigits_ne_nil (n := n / 10) (b := 10))
        have hhead := ih (n / 10) (by omega) (by omega)
        rw [Nat.toDigits_of_base_le (by decide) hlarge, hdigits]
        rw [hdigits] at hhead
        exact hhead

theorem ofDigits_decimal (n : Nat) : ofDigits 0 (decimal n) = n :=
  Nat.ofDigitChars_toDigits (by decide) (Nat.le_refl 10)

theorem ofDigits_append (before : Nat) (a b : Text) :
    ofDigits before (a ++ b) = ofDigits (ofDigits before a) b :=
  List.foldl_append

/-- Each zero behind a number is one place more. -/
theorem ofDigits_zeros (before k : Nat) :
    ofDigits before (zeros k) = before * tenTo k := by
  induction k generalizing before with
  | zero => exact (Nat.mul_one before).symm
  | succ k ih =>
      have hplace : tenTo (k + 1) = 10 * tenTo k := Nat.pow_succ'
      show ofDigits (10 * before) (zeros k) = _
      rw [ih, hplace, Nat.mul_comm 10 before, Nat.mul_assoc]

theorem isDigit_of_mem_zeros {k : Nat} {c : Char} (h : c ∈ zeros k) :
    c.isDigit = true := by
  rw [List.eq_of_mem_replicate h]
  rfl

-- ========================================================= zeros in front

variable {width n : Nat}

/-- Zeros in front do not count. -/
theorem ofDigits_zeros_append (k : Nat) (t : Text) :
    ofDigits 0 (zeros k ++ t) = ofDigits 0 t := by
  rw [ofDigits_append, ofDigits_zeros, Nat.zero_mul]

theorem ofDigits_decimalPadded : ofDigits 0 (decimalPadded width n) = n :=
  (ofDigits_zeros_append _ _).trans (ofDigits_decimal n)

theorem isDigit_of_mem_decimalPadded {c : Char}
    (h : c ∈ decimalPadded width n) :
    c.isDigit = true := by
  rcases List.mem_append.1 h with h | h
  · exact isDigit_of_mem_zeros h
  · exact isDigit_of_mem_decimal h

theorem decimalPadded_ne_nil (width n : Nat) : decimalPadded width n ≠ [] := by
  simp [decimalPadded, decimal_ne_nil]

theorem length_decimalPadded (hwidth : 0 < width) (h : n < tenTo width) :
    (decimalPadded width n).length = width := by
  have hlength : (decimal n).length ≤ width :=
    (Nat.length_toDigits_le_iff (by decide) hwidth).2 h
  unfold decimalPadded
  rw [List.length_append, List.length_replicate]
  omega

end GridScript.Number
