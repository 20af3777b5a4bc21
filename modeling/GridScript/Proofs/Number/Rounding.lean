/-
Rounding stays among the finite numbers: a quotient that is at most the
greatest finite magnitude is rounded to a finite number. The exponent of the
rounding leaves at most 53 bits before the point and, unless it is the least
there is, no fewer, so it is the greatest one only for quotients in the last
binade, and there the mantissa cannot carry.
-/
import GridScript.Proofs.Number.Shortest

namespace GridScript

namespace Number

theorem twoTo_zero : twoTo 0 = 1 := rfl

theorem twoTo_add (m n : Nat) : twoTo (m + n) = twoTo m * twoTo n :=
  Nat.pow_add 2 m n

theorem twoTo_le {m n : Nat} (h : m ≤ n) : twoTo m ≤ twoTo n :=
  Nat.pow_le_pow_right (by decide) h

theorem tenTo_le {m n : Nat} (h : m ≤ n) : tenTo m ≤ tenTo n :=
  Nat.pow_le_pow_right (by decide) h

end Number

namespace Double

open Number (twoTo twoTo_pos twoTo_zero twoTo_add twoTo_le)

/-- The greatest finite magnitude. -/
def greatest : Nat := (twoTo 53 - 1) * twoTo 971

theorem greatest_lt : greatest < twoTo (53 + 971) := by
  rw [twoTo_add]
  exact Nat.mul_lt_mul_of_pos_right (by decide) (twoTo_pos 971)

-- ============================================================== nearest

theorem nearest_cases (num den : Nat) :
    nearest num den = num / den ∨ nearest num den = num / den + 1 := by
  unfold nearest
  simp only
  split
  · exact .inl rfl
  · split
    · exact .inr rfl
    · split
      · exact .inl rfl
      · exact .inr rfl

/-- Rounding does not pass a natural number. -/
theorem nearest_le {num den n : Nat} (hden : 0 < den) (h : num ≤ n * den) :
    nearest num den ≤ n := by
  have hfloor : num / den ≤ n := Nat.div_le_of_le_mul (Nat.mul_comm n den ▸ h)
  by_cases hlt : num / den < n
  · rcases nearest_cases num den with heq | heq <;> omega
  · -- the quotient is the number itself, without a remainder
    obtain rfl : num / den = n := by omega
    have hzero : num % den = 0 := by
      have hparts := Nat.div_add_mod num den
      rw [Nat.mul_comm] at hparts
      omega
    unfold nearest
    simp only [hzero, Nat.mul_zero, if_pos hden]
    exact Nat.le_refl _

theorem le_nearest {num den n : Nat} (hden : 0 < den) (h : n * den ≤ num) :
    n ≤ nearest num den := by
  have hfloor : n ≤ num / den := (Nat.le_div_iff_mul_le hden).2 h
  rcases nearest_cases num den with heq | heq <;> omega

-- ====================================================== rounding exponent

section Exponent

variable {num den : Nat}

/-- Has the quotient by `2 ^ e` at most 53 bits before the point? -/
def FitsAt (num den : Nat) (e : Int) : Prop :=
  num * twoTo (-e).toNat < twoTo 53 * (den * twoTo e.toNat)

theorem FitsAt.mono {e e' : Int} (h : FitsAt num den e) (hle : e ≤ e') :
    FitsAt num den e' :=
  calc num * twoTo (-e').toNat
      ≤ num * twoTo (-e).toNat := Nat.mul_le_mul_left _ (twoTo_le (by omega))
    _ < twoTo 53 * (den * twoTo e.toNat) := h
    _ ≤ twoTo 53 * (den * twoTo e'.toNat) :=
        Nat.mul_le_mul_left _ (Nat.mul_le_mul_left _ (twoTo_le (by omega)))

/-- A quotient that is at least one has too many bits at any exponent below
these. -/
theorem FitsAt.neg_le {e : Int} (hfits : FitsAt num den e) (h : den ≤ num) :
    -52 ≤ e := by
  refine Int.not_lt.1 fun hlow => ?_
  have hzero : e.toNat = 0 := by omega
  have hover : twoTo 53 * (den * twoTo e.toNat) ≤ num * twoTo (-e).toNat :=
    calc twoTo 53 * (den * twoTo e.toNat)
        = den * twoTo 53 := by
          rw [hzero, twoTo_zero, Nat.mul_one, Nat.mul_comm]
      _ ≤ num * twoTo (-e).toNat := Nat.mul_le_mul h (twoTo_le (by omega))
  exact Nat.not_le_of_lt hfits hover

/-- One more than the estimate is always enough. -/
theorem fitsAt_estimate (hden : 0 < den) :
    FitsAt num den ((Nat.log2 num : Int) - Nat.log2 den - 53 + 1) := by
  have hlow : twoTo (Nat.log2 den) ≤ den :=
    Nat.log2_self_le (Nat.ne_of_gt hden)
  have hhigh : num < twoTo (Nat.log2 num + 1) := Nat.lt_log2_self
  generalize he : (Nat.log2 num : Int) - Nat.log2 den - 53 + 1 = e
  calc num * twoTo (-e).toNat
      < twoTo (Nat.log2 num + 1) * twoTo (-e).toNat :=
        Nat.mul_lt_mul_of_pos_right hhigh (twoTo_pos _)
    _ = twoTo 53 * (twoTo (Nat.log2 den) * twoTo e.toNat) := by
        rw [← twoTo_add, ← twoTo_add, ← twoTo_add]
        congr 1
        omega
    _ ≤ twoTo 53 * (den * twoTo e.toNat) :=
        Nat.mul_le_mul_left _ (Nat.mul_le_mul_right _ hlow)

/-- At the rounding exponent the quotient has at most 53 bits. -/
theorem fitsAt_roundingExponent (hden : 0 < den) :
    FitsAt num den (roundingExponent num den) := by
  unfold roundingExponent
  split
  case isTrue hzero =>
      unfold FitsAt
      rw [hzero, Nat.zero_mul]
      exact Nat.mul_pos (twoTo_pos 53) (Nat.mul_pos hden (twoTo_pos _))
  case isFalse =>
      simp only
      split
      case isTrue hfits => exact FitsAt.mono hfits (Int.le_max_right ..)
      case isFalse => exact (fitsAt_estimate hden).mono (Int.le_max_right ..)

theorem neg_le_roundingExponent (num den : Nat) :
    -1074 ≤ roundingExponent num den := by
  unfold roundingExponent
  split
  · exact Int.le_refl _
  · exact Int.le_max_left ..

/-- A rounding exponent above zero is needed: below it the quotient has more
than 53 bits. -/
theorem le_of_roundingExponent {e : Nat}
    (he : roundingExponent num den = (e + 1 : Nat)) :
    den * twoTo (53 + e) ≤ num := by
  unfold roundingExponent at he
  split at he
  case isTrue => omega
  case isFalse hne =>
      have hlow : twoTo (Nat.log2 num) ≤ num := Nat.log2_self_le hne
      have hhigh : den < twoTo (Nat.log2 den + 1) := Nat.lt_log2_self
      simp only at he
      split at he
      case isTrue =>
          have hestimate : Nat.log2 den + 1 + (53 + e) = Nat.log2 num := by
            omega
          calc den * twoTo (53 + e)
              ≤ twoTo (Nat.log2 den + 1) * twoTo (53 + e) :=
                Nat.mul_le_mul_right _ (Nat.le_of_lt hhigh)
            _ = twoTo (Nat.log2 num) := by rw [← twoTo_add, hestimate]
            _ ≤ num := hlow
      case isFalse hover =>
          -- the estimate was one too low
          have hestimate : (Nat.log2 num : Int) - Nat.log2 den - 53
              = (e : Int) := by omega
          rw [hestimate, Int.toNat_neg_natCast, Int.toNat_natCast] at hover
          calc den * twoTo (53 + e)
              = twoTo 53 * (den * twoTo e) := by
                rw [twoTo_add, Nat.mul_left_comm]
            _ ≤ num * twoTo 0 := Nat.le_of_not_lt hover
            _ = num := Nat.mul_one num

end Exponent

-- ================================================================ finite

/-- A quotient up to the greatest magnitude is rounded to a finite number. -/
theorem isFinite_ofRatio {num den : Nat} (negative : Bool) (hden : 0 < den)
    (h : num ≤ greatest * den) :
    (ofRatio negative num den).isFinite = true := by
  have hfits : FitsAt num den (roundingExponent num den) :=
    fitsAt_roundingExponent hden
  have hleast := neg_le_roundingExponent num den
  have hneeds := fun e => @le_of_roundingExponent num den e
  generalize hq : roundingExponent num den = q at hfits hleast hneeds
  have hmantissa : nearest (num * twoTo (-q).toNat) (den * twoTo q.toNat)
      ≤ twoTo 53 :=
    nearest_le (Nat.mul_pos hden (twoTo_pos _)) (Nat.le_of_lt hfits)
  -- beyond the last exponent the quotient would exceed `greatest`
  have hlast : q ≤ 971 := by
    refine Int.not_lt.1 fun hbeyond => ?_
    obtain ⟨e, rfl⟩ : ∃ e : Nat, q = (e + 1 : Nat) := ⟨(q - 1).toNat, by omega⟩
    have hlarge : den * twoTo (53 + 971) ≤ num :=
      Nat.le_trans (Nat.mul_le_mul_left _ (twoTo_le (by omega))) (hneeds e rfl)
    have hless : num < den * twoTo (53 + 971) :=
      calc num
          ≤ greatest * den := h
        _ < twoTo (53 + 971) * den :=
          Nat.mul_lt_mul_of_pos_right greatest_lt hden
        _ = den * twoTo (53 + 971) := Nat.mul_comm ..
    exact Nat.not_le_of_lt hless hlarge
  have hranks : ranks = 2047 * twoTo 52 := rfl
  have hbits : twoTo 53 = 2 * twoTo 52 := rfl
  have hrank : (q + 1074).toNat * twoTo 52
      + nearest (num * twoTo (-q).toNat) (den * twoTo q.toNat) < ranks := by
    -- at the last exponent the mantissa stays below its bound
    by_cases htop : q = 971
    · subst htop
      have hshort : nearest (num * twoTo 0) (den * twoTo 971)
          ≤ twoTo 53 - 1 := by
        refine nearest_le (Nat.mul_pos hden (twoTo_pos _)) ?_
        calc num * twoTo 0
            = num := Nat.mul_one num
          _ ≤ greatest * den := h
          _ = (twoTo 53 - 1) * (den * twoTo 971) := by
              unfold greatest
              rw [Nat.mul_assoc, Nat.mul_comm den]
      have hpos := twoTo_pos 52
      show 2045 * twoTo 52 + nearest (num * twoTo 0) (den * twoTo 971) < _
      omega
    · have hbinade : (q + 1074).toNat * twoTo 52 ≤ 2044 * twoTo 52 :=
        Nat.mul_le_mul_right _ (by omega)
      have hpos := twoTo_pos 52
      omega
  unfold ofRatio
  simp only [hq, dif_pos hrank]
  rfl

-- ============================================================ magnitudes

theorem ratio_pos (rank : Nat) : 0 < (magnitude rank).ratio.2 := twoTo_pos _

/-- No magnitude is above the greatest one. -/
theorem ratio_le (rank : Fin ranks) :
    (magnitude rank).ratio.1 ≤ greatest * (magnitude rank).ratio.2 := by
  obtain ⟨rank, hrank⟩ := rank
  have hbits : twoTo 53 = 2 * twoTo 52 := rfl
  have hfraction : rank % twoTo 52 < twoTo 52 := Nat.mod_lt _ (twoTo_pos 52)
  have hbinade : rank / twoTo 52 < 2047 :=
    Nat.div_lt_of_lt_mul (Nat.mul_comm .. ▸ hrank)
  obtain ⟨hmantissa, hexponent⟩ :
      (magnitude rank).mantissa ≤ twoTo 53 - 1
        ∧ (magnitude rank).exponent ≤ 971 := by
    unfold magnitude
    simp only
    split
    -- the lowest binade has no leading bit
    · constructor
      · show rank % twoTo 52 ≤ _
        omega
      · show (-1074 : Int) ≤ 971
        decide
    · constructor
      · show twoTo 52 + rank % twoTo 52 ≤ _
        omega
      · show ((rank / twoTo 52 : Nat) : Int) - 1075 ≤ 971
        omega
  calc (magnitude rank).mantissa * twoTo (magnitude rank).exponent.toNat
      ≤ (twoTo 53 - 1) * twoTo 971 :=
        Nat.mul_le_mul hmantissa (twoTo_le (by omega))
    _ ≤ greatest * (magnitude rank).ratio.2 :=
      Nat.le_mul_of_pos_right _ (ratio_pos rank)

/-- The ranks from that of one on are those of magnitudes from one on. -/
theorem one_le_ratio {rank : Nat} (h : 1023 * twoTo 52 ≤ rank) :
    (magnitude rank).ratio.2 ≤ (magnitude rank).ratio.1 := by
  have hbinade : 1023 ≤ rank / twoTo 52 :=
    (Nat.le_div_iff_mul_le (twoTo_pos 52)).2 h
  obtain ⟨hmantissa, hexponent⟩ :
      twoTo 52 ≤ (magnitude rank).mantissa
        ∧ -52 ≤ (magnitude rank).exponent := by
    unfold magnitude
    simp only
    rw [if_neg (by omega)]
    constructor
    · exact Nat.le_add_right ..
    · show (-52 : Int) ≤ ((rank / twoTo 52 : Nat) : Int) - 1075
      omega
  calc twoTo (-(magnitude rank).exponent).toNat
      ≤ twoTo 52 := twoTo_le (by omega)
    _ = twoTo 52 * twoTo 0 := (Nat.mul_one _).symm
    _ ≤ (magnitude rank).mantissa * twoTo (magnitude rank).exponent.toNat :=
        Nat.mul_le_mul hmantissa (twoTo_le (Nat.zero_le _))

/-- A quotient that is at least one is rounded to no less. -/
theorem le_rank_of_ofRatio {num den : Nat} {negative s : Bool}
    {rank : Fin ranks} (hden : 0 < den) (h : den ≤ num)
    (hfinite : ofRatio negative num den = .finite s rank) :
    1023 * twoTo 52 ≤ rank.val := by
  have hleast := (fitsAt_roundingExponent hden).neg_le h
  unfold ofRatio at hfinite
  generalize roundingExponent num den = q at hleast hfinite
  simp only at hfinite
  split at hfinite
  case isFalse => cases hfinite
  case isTrue =>
      cases hfinite
      show 1023 * twoTo 52 ≤ (q + 1074).toNat * twoTo 52 + _
      by_cases hone : q = -52
      -- at this exponent the mantissa has its leading bit
      · subst hone
        have hmantissa : twoTo 52
            ≤ nearest (num * twoTo 52) (den * twoTo 0) := by
          refine le_nearest (Nat.mul_pos hden (twoTo_pos 0)) ?_
          calc twoTo 52 * (den * twoTo 0)
              = den * twoTo 52 := by rw [twoTo_zero, Nat.mul_one, Nat.mul_comm]
            _ ≤ num * twoTo 52 := Nat.mul_le_mul_right _ h
        show _ ≤ 1022 * twoTo 52 + nearest (num * twoTo 52) (den * twoTo 0)
        omega
      · have hbinade : 1023 * twoTo 52 ≤ (q + 1074).toNat * twoTo 52 :=
          Nat.mul_le_mul_right _ (by omega)
        omega

/-- A quotient by a magnitude that is at least one is finite. -/
theorem isFinite_divRank {a b : Fin ranks}
    (hb : (magnitude b).ratio.2 ≤ (magnitude b).ratio.1) :
    (divRank a b).isFinite = true := by
  refine isFinite_ofRatio false (Nat.mul_pos (ratio_pos a)
    (Nat.lt_of_lt_of_le (ratio_pos b) hb)) ?_
  calc (magnitude a).ratio.1 * (magnitude b).ratio.2
      ≤ greatest * (magnitude a).ratio.2 * (magnitude b).ratio.1 :=
        Nat.mul_le_mul (ratio_le a) hb
    _ = greatest * ((magnitude a).ratio.2 * (magnitude b).ratio.1) :=
      Nat.mul_assoc ..

end Double

end GridScript
