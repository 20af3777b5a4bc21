/-
Whatever the reader of JSON numbers accepts is finite. A product that is
infinite is refused, and a quotient is by a power of ten, which is at least
one.
-/
import GridScript.Json.Fields
import GridScript.Proofs.Number.Rounding

namespace GridScript

namespace Double

theorem exists_rank? {x : Double} (h : x.isFinite = true) :
    ∃ s rank, x = .finite s rank ∧ x.rank? = some rank := by
  cases x with
  | finite s rank => exact ⟨s, rank, rfl, rfl⟩
  | nan => cases h
  | infinite => cases h

theorem isFinite_neg {x : Double} (h : x.isFinite = true) :
    x.neg.isFinite = true := by
  obtain ⟨s, rank, rfl, -⟩ := exists_rank? h
  rfl

theorem isFinite_of_mulRank {a b : Fin ranks} {x : Double}
    (h : (mulRank a b).bounded? = some x) : x.isFinite = true := by
  unfold mulRank ofRatio at h
  simp only at h
  split at h
  case isTrue =>
      cases h
      rfl
  case isFalse => cases h

end Double

namespace Json

open Number (tenTo)

-- ========================================================= powers of ten

/-- Every power of ten within the limit is finite and at least one. -/
theorem exists_powerOfTen {n : Nat} (h : n ≤ scaleLimit) :
    ∃ power, (powerOfTen n).rank? = some power
      ∧ (Double.magnitude power).ratio.2
        ≤ (Double.magnitude power).ratio.1 := by
  have hpower : powerOfTen n = .ofRatio false (1 * tenTo n) 1 := by
    unfold powerOfTen Double.ofDecimal
    rw [Int.toNat_natCast, Int.toNat_neg_natCast]
    rfl
  have hbound : 1 * tenTo n ≤ Double.greatest * 1 :=
    calc 1 * tenTo n
        ≤ tenTo scaleLimit := by
          rw [Nat.one_mul]
          exact Number.tenTo_le h
      _ ≤ Double.greatest * 1 := by decide +kernel
  have hfinite := Double.isFinite_ofRatio false Nat.one_pos hbound
  rw [← hpower] at hfinite
  obtain ⟨s, power, hvalue, hrank⟩ := Double.exists_rank? hfinite
  refine ⟨power, hrank, Double.one_le_ratio ?_⟩
  refine Double.le_rank_of_ofRatio Nat.one_pos ?_ (hpower.symm.trans hvalue)
  rw [Nat.one_mul]
  exact Number.tenTo_pos n

theorem isFinite_divPower (rank : Fin Double.ranks) {n : Nat}
    (h : n ≤ scaleLimit) :
    (divPower rank n).isFinite = true := by
  obtain ⟨power, hpower, hone⟩ := exists_powerOfTen h
  unfold divPower
  rw [hpower, Option.map_some, Option.getD_some]
  exact Double.isFinite_divRank hone

-- =============================================================== scaling

theorem isFinite_of_mulPower? {rank : Fin Double.ranks} {n : Nat} {x : Double}
    (h : mulPower? rank n = some x) : x.isFinite = true := by
  unfold mulPower? at h
  obtain ⟨power, -, h⟩ := Option.bind_eq_some_iff.1 h
  exact Double.isFinite_of_mulRank h

/-- A number is scaled at once or after one quotient. -/
theorem scaleRank?_cases {steps : Nat} {rank : Fin Double.ranks}
    {exponent : Int} {x : Double}
    (h : scaleRank? steps rank exponent = some x) :
    x.isFinite = true ∨ ∃ left quotient, steps = left + 1
      ∧ scaleRank? left quotient (exponent + scaleLimit) = some x := by
  unfold scaleRank? at h
  split at h
  next =>
      cases h
      exact .inl rfl
  split at h
  next hlimit =>
      left
      split at h
      next => exact isFinite_of_mulPower? h
      next =>
          cases h
          exact isFinite_divPower rank hlimit
  split at h
  next => cases h
  cases steps with
  | zero =>
      -- no quotients are left, and it is zero by then
      cases h
      exact .inl rfl
  | succ steps =>
      cases hquotient : (divPower rank scaleLimit).rank? with
      | none =>
          rw [hquotient] at h
          cases h
          exact .inl rfl
      | some quotient =>
          rw [hquotient] at h
          exact .inr ⟨steps, quotient, rfl, h⟩

theorem isFinite_of_scaleRank? {steps : Nat} {rank : Fin Double.ranks}
    {exponent : Int} {x : Double}
    (h : scaleRank? steps rank exponent = some x) : x.isFinite = true := by
  induction steps generalizing rank exponent with
  | zero =>
      rcases scaleRank?_cases h with hfinite | ⟨left, -, hsteps, -⟩
      · exact hfinite
      · cases hsteps
  | succ steps ih =>
      rcases scaleRank?_cases h with hfinite | ⟨left, quotient, hsteps, hrest⟩
      · exact hfinite
      · cases hsteps
        exact ih hrest

theorem isFinite_magnitude? {t : Text} {x : Double}
    (h : magnitude? t = some x) :
    x.isFinite = true := by
  unfold magnitude? at h
  simp only at h
  split at h
  next =>
      unfold scaled? at h
      obtain ⟨rank, -, h⟩ := Option.bind_eq_some_iff.1 h
      exact isFinite_of_scaleRank? h
  next =>
      split at h
      next =>
          cases h
          rfl
      next => cases h

/-- A number that is read is finite. -/
theorem isFinite_of_toDouble? {spelling : Text} {x : Double}
    (h : toDouble? spelling = some x) :
    x.isFinite = true := by
  unfold toDouble? at h
  split at h
  next =>
      obtain ⟨y, hy, rfl⟩ := Option.map_eq_some_iff.1 h
      exact Double.isFinite_neg (isFinite_magnitude? hy)
  next => exact isFinite_magnitude? h

theorem isFinite_of_asDouble? {j : Json} {x : Double}
    (h : j.asDouble? = some x) :
    x.isFinite = true := by
  unfold asDouble? at h
  split at h
  next => exact isFinite_of_toDouble? h
  next => cases h

end Json

end GridScript
