/-
The shortest decimal of a magnitude other than zero has a digit that is not
zero: what rounds to the magnitude is no zero, and trailing zeros are taken
off one by one.
-/
import GridScript.Number.Shortest

namespace GridScript.Number

theorem twoTo_pos (n : Nat) : 0 < twoTo n := Nat.pow_pos (by decide)

theorem tenTo_pos (n : Nat) : 0 < tenTo n := Nat.pow_pos (by decide)

/-- The magnitudes of a binade, by their place in it. -/
theorem magnitude_add (binade : Nat) {fraction : Nat}
    (h : fraction < twoTo 52) :
    Double.magnitude (binade * twoTo 52 + fraction)
      = if binade = 0 then ⟨fraction, -1074⟩
        else ⟨twoTo 52 + fraction, (binade : Int) - 1075⟩ := by
  have hbinade : (binade * twoTo 52 + fraction) / twoTo 52 = binade := by
    rw [Nat.mul_comm, Nat.mul_add_div (twoTo_pos 52), Nat.div_eq_of_lt h,
      Nat.add_zero]
  have hfraction : (binade * twoTo 52 + fraction) % twoTo 52 = fraction := by
    rw [Nat.mul_comm, Nat.mul_add_mod, Nat.mod_eq_of_lt h]
  unfold Double.magnitude
  simp only [hbinade, hfraction]

theorem exists_binade (rank : Nat) :
    ∃ binade fraction, fraction < twoTo 52
      ∧ rank = binade * twoTo 52 + fraction :=
  ⟨rank / twoTo 52, rank % twoTo 52, Nat.mod_lt _ (twoTo_pos 52), by
    rw [Nat.mul_comm, Nat.div_add_mod]⟩

theorem mantissa_pos {rank : Nat} (h : rank ≠ 0) :
    0 < (Double.magnitude rank).mantissa := by
  obtain ⟨binade, fraction, hfraction, rfl⟩ := exists_binade rank
  rw [magnitude_add binade hfraction]
  split
  case isTrue hbinade =>
      rw [hbinade, Nat.zero_mul, Nat.zero_add] at h
      exact Nat.pos_of_ne_zero h
  case isFalse => exact Nat.add_pos_left (twoTo_pos 52) _

variable {tie : Tie} {rank : Nat} {d : Decimal}

theorem digits_ne_zero_of_roundsTo (h : rank ≠ 0)
    (hrounds : roundsTo rank d = true) :
    d.digits ≠ 0 := by
  intro hzero
  have hmantissa := mantissa_pos h
  unfold roundsTo at hrounds
  simp only [Bool.and_eq_true, Bool.or_eq_true, beq_iff_eq, hzero] at hrounds
  -- the lower end of the interval is above zero
  have hlow : ∀ low, 0 < low →
      ∀ j, compareScaled 0 d.exponent low j = .lt := by
    intro low hlow j
    unfold compareScaled
    rw [Nat.zero_mul, Nat.zero_mul, Nat.compare_eq_lt]
    exact Nat.mul_pos (Nat.mul_pos hlow (twoTo_pos _)) (tenTo_pos _)
  obtain ⟨hlowest, -⟩ := hrounds
  rw [hlow] at hlowest
  · simp at hlowest
  · split <;> omega

theorem roundsTo_of_onGrid? {exponent : Int}
    (h : onGrid? tie rank exponent = some d) :
    roundsTo rank d = true := by
  unfold onGrid? at h
  simp only at h
  split at h
  next => cases h
  next hbelow _ =>
      cases h
      exact hbelow
  next _ habove =>
      cases h
      exact habove
  next hbelow habove =>
      -- both neighbours round to the magnitude, and one of them is taken
      split at h
      next =>
          cases h
          exact hbelow
      next =>
          cases h
          exact habove
      next =>
          split at h
          next =>
              cases h
              exact habove
          next =>
              cases h
              split
              · exact hbelow
              · exact habove

theorem digits_stripZeros_ne_zero {fuel : Nat} (h : d.digits ≠ 0) :
    (stripZeros fuel d).digits ≠ 0 := by
  induction fuel generalizing d with
  | zero => exact h
  | succ fuel ih =>
      rw [stripZeros]
      split
      case isTrue hzero =>
          refine ih ?_
          show d.digits / 10 ≠ 0
          omega
      case isFalse => exact h

theorem digits_shortest_ne_zero (tie : Tie) (h : rank ≠ 0) :
    (shortest tie rank).digits ≠ 0 := by
  unfold shortest
  simp only
  split
  next d hfound =>
      obtain ⟨n, -, hgrid⟩ := List.exists_of_findSome?_eq_some hfound
      exact digits_stripZeros_ne_zero
        (digits_ne_zero_of_roundsTo h (roundsTo_of_onGrid? hgrid))
  next =>
      exact Nat.ne_of_gt
        (Nat.mul_pos (Nat.mul_pos (mantissa_pos h) (twoTo_pos _))
          (Nat.pow_pos (by decide)))

end GridScript.Number
