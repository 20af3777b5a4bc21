/-
Which magnitude a decimal rounds to. The decimals that round to a magnitude
form an interval, and the intervals of the ranks follow one another without
a gap: each begins at the end of the one below (`lowEnd_eq`), also where
the spacing doubles. A shared end belongs to the even one of its two ranks,
so no decimal rounds to two magnitudes (`rank_unique`), and the shortest
decimal of a magnitude can be told from that of any other, because it
rounds to its own (`roundsTo_shortest`).

Every end is a whole multiple of 2^-1076, a quarter of the least spacing. In
this unit the ends are natural numbers, and a decimal is a quotient of two.
-/
import GridScript.Proofs.Number.Rounding

namespace GridScript.Number

variable {rank s : Nat} {d d' : Decimal}

-- ========================================================== comparisons

/-- Quotients are compared by what they are of a common unit. -/
theorem compare_mul_right {k : Nat} (hk : 0 < k) (a b : Nat) :
    compare (a * k) (b * k) = compare a b := by
  rcases Nat.lt_trichotomy a b with h | rfl | h
  · rw [Nat.compare_eq_lt.2 h,
      Nat.compare_eq_lt.2 (Nat.mul_lt_mul_of_pos_right h hk)]
  · rw [Nat.compare_eq_eq.2 rfl, Nat.compare_eq_eq.2 rfl]
  · rw [Nat.compare_eq_gt.2 h,
      Nat.compare_eq_gt.2 (Nat.mul_lt_mul_of_pos_right h hk)]

theorem twoTo_succ (n : Nat) : twoTo (n + 1) = twoTo n + twoTo n := by
  rw [twoTo_add, show twoTo 1 = 2 from rfl, Nat.mul_two]

theorem tenTo_succ (n : Nat) : tenTo (n + 1) = tenTo n * 10 :=
  Nat.pow_succ 10 n

/-- The unit is small enough for every exponent of a magnitude. -/
theorem compareScaled_eq (a : Nat) (i : Int) (b : Nat) {j : Int}
    (hj : -1076 ≤ j) :
    compareScaled a i b j
      = compare (a * tenTo i.toNat * twoTo 1076)
          (b * twoTo (j + 1076).toNat * tenTo (-i).toNat) := by
  obtain ⟨k, hlow, hhigh⟩ : ∃ k, (-j).toNat + k = 1076
      ∧ j.toNat + k = (j + 1076).toNat :=
    ⟨1076 - (-j).toNat, by omega, by omega⟩
  have hleft : a * tenTo i.toNat * twoTo (-j).toNat * twoTo k
      = a * tenTo i.toNat * twoTo 1076 := by
        rw [Nat.mul_assoc, ← twoTo_add, hlow]
  have hright : b * twoTo j.toNat * tenTo (-i).toNat * twoTo k
      = b * twoTo (j + 1076).toNat * tenTo (-i).toNat := by
    rw [Nat.mul_right_comm, Nat.mul_assoc b, ← twoTo_add, hhigh]
  unfold compareScaled
  rw [← compare_mul_right (twoTo_pos k), hleft, hright]

/-- A digit more is one place less. -/
theorem compareScaled_ten (a : Nat) (i : Int) (b : Nat) (j : Int) :
    compareScaled (a * 10) i b j = compareScaled a (i + 1) b j := by
  unfold compareScaled
  by_cases hi : 0 ≤ i
  · have hup : (i + 1).toNat = i.toNat + 1 := by omega
    have hdown : (-(i + 1)).toNat = (-i).toNat := by omega
    rw [hup, hdown, tenTo_succ, Nat.mul_assoc a 10, Nat.mul_comm 10]
  · have hup : (i + 1).toNat = i.toNat := by omega
    have hdown : (-i).toNat = (-(i + 1)).toNat + 1 := by omega
    rw [hup, hdown, tenTo_succ, ← compare_mul_right (k := 10) (by decide)
      (a * tenTo i.toNat * twoTo (-j).toNat), ← Nat.mul_assoc,
        Nat.mul_right_comm a 10,
      Nat.mul_right_comm _ 10]

-- ======================================================= ends of intervals

/-- The end of the interval of a rank, halfway to the magnitude above. -/
def highEnd (rank : Nat) : Nat :=
  (4 * (Double.magnitude rank).mantissa + 2)
    * twoTo ((Double.magnitude rank).exponent + 1074).toNat

/-- Its beginning, halfway to the magnitude below; zero has none. -/
def lowEnd : Nat → Nat
  | 0 => 0
  | rank + 1 => highEnd rank

theorem neg_le_exponent (rank : Nat) :
    -1074 ≤ (Double.magnitude rank).exponent := by
  obtain ⟨binade, fraction, hfraction, rfl⟩ := exists_binade rank
  rw [magnitude_add binade hfraction]
  split
  · exact Int.le_refl _
  · show (-1074 : Int) ≤ (binade : Int) - 1075
    omega

/-- Mantissas are even and odd in turn, also from one binade to the next. -/
theorem mantissa_mod_two (rank : Nat) :
    (Double.magnitude rank).mantissa % 2 = rank % 2 := by
  obtain ⟨binade, fraction, hfraction, rfl⟩ := exists_binade rank
  have hbits : twoTo 52 = 2 * twoTo 51 := rfl
  have hrank : (binade * twoTo 52 + fraction) % 2 = fraction % 2 := by
    rw [hbits, Nat.mul_left_comm, Nat.mul_add_mod]
  rw [magnitude_add binade hfraction, hrank]
  split
  · rfl
  · show (twoTo 52 + fraction) % 2 = fraction % 2
    rw [hbits, Nat.mul_add_mod]

/-- How many quarters of its spacing a magnitude is above the beginning of
its interval. The magnitude below is half as far away as the one above
where the spacing widens. -/
def gap (rank : Nat) : Nat :=
  if rank % twoTo 52 == 0 && decide (twoTo 53 ≤ rank) then 1 else 2

theorem gap_pos (rank : Nat) : 0 < gap rank := by
  unfold gap
  split <;> decide

/-- The next magnitude has the next mantissa, or it begins a binade with a
wider spacing. -/
theorem magnitude_succ (rank : Nat) :
    (Double.magnitude (rank + 1)
          = ⟨(Double.magnitude rank).mantissa + 1,
            (Double.magnitude rank).exponent⟩
        ∧ gap (rank + 1) = 2)
      ∨ (Double.magnitude (rank + 1)
        = ⟨twoTo 52, (Double.magnitude rank).exponent + 1⟩
        ∧ (Double.magnitude rank).mantissa + 1 = twoTo 53
        ∧ gap (rank + 1) = 1) := by
  obtain ⟨binade, fraction, hfraction, rfl⟩ := exists_binade rank
  have hbits : twoTo 53 = twoTo 52 + twoTo 52 := twoTo_succ 52
  have hpos := twoTo_pos 52
  rw [magnitude_add binade hfraction]
  by_cases hlast : fraction + 1 = twoTo 52
  -- the next magnitude begins a binade
  · have hnext : binade * twoTo 52 + fraction + 1
        = (binade + 1) * twoTo 52 + 0 := by
      rw [Nat.add_assoc, hlast, Nat.add_mul, Nat.one_mul, Nat.add_zero]
    have hmod : ((binade + 1) * twoTo 52 + 0) % twoTo 52 = 0 := by
      rw [Nat.add_zero, Nat.mul_mod_left]
    rw [gap, hnext, hmod, magnitude_add (binade + 1) hpos,
      if_neg (Nat.succ_ne_zero binade), Nat.add_zero, Nat.add_zero]
    cases binade with
    | zero =>
        -- the lowest binade has the spacing of the one above it
        refine Or.inl ⟨?_, ?_⟩
        · rw [if_pos rfl, hlast]
          rfl
        · have hbelow : ¬twoTo 53 ≤ (0 + 1) * twoTo 52 + 0 := by omega
          rw [decide_eq_false hbelow]
          rfl
    | succ binade =>
        have hwide : twoTo 53 ≤ (binade + 1 + 1) * twoTo 52 + 0 := by
          rw [hbits, ← Nat.two_mul, Nat.add_zero]
          exact Nat.mul_le_mul_right _ (by omega)
        refine Or.inr ⟨?_, ?_, ?_⟩
        · rw [if_neg (Nat.succ_ne_zero binade)]
          congr 1
          show ((binade + 1 + 1 : Nat) : Int) - 1075
              = ((binade + 1 : Nat) : Int) - 1075 + 1
          omega
        · rw [if_neg (Nat.succ_ne_zero binade)]
          show twoTo 52 + fraction + 1 = twoTo 53
          omega
        · rw [decide_eq_true hwide]
          rfl
  -- both magnitudes are in one binade
  · have hinside : fraction + 1 < twoTo 52 := by omega
    have hmod : (binade * twoTo 52 + (fraction + 1)) % twoTo 52
        = fraction + 1 := by
      rw [Nat.mul_comm, Nat.mul_add_mod, Nat.mod_eq_of_lt hinside]
    refine Or.inl ⟨?_, ?_⟩
    · rw [Nat.add_assoc, magnitude_add binade hinside]
      split
      · rfl
      · rfl
    · rw [Nat.add_assoc, gap, hmod]
      rfl

/-- Each interval begins where the one below ends. Where the spacing widens
the magnitude below is only half as far away. -/
theorem lowEnd_eq (rank : Nat) :
    lowEnd rank
      = (4 * (Double.magnitude rank).mantissa - gap rank)
          * twoTo ((Double.magnitude rank).exponent + 1074).toNat := by
  cases rank with
  | zero =>
      have hzero : Double.magnitude 0 = ⟨0, -1074⟩ := by
        have hfirst := magnitude_add 0 (twoTo_pos 52)
        rwa [Nat.add_zero, Nat.zero_mul, if_pos rfl] at hfirst
      rw [hzero, Nat.mul_zero, Nat.zero_sub, Nat.zero_mul, lowEnd]
  | succ rank =>
      have hexponent := neg_le_exponent rank
      have hbits : twoTo 53 = twoTo 52 + twoTo 52 := twoTo_succ 52
      rw [lowEnd, highEnd]
      rcases magnitude_succ rank with ⟨hnext, hsame⟩ | ⟨hnext, hlast, hwider⟩
      · have hmantissa : 4 * ((Double.magnitude rank).mantissa + 1) - 2
            = 4 * (Double.magnitude rank).mantissa + 2 := by omega
        rw [hnext, hsame, hmantissa]
      -- the next binade has twice the spacing
      · have hshift : ((Double.magnitude rank).exponent + 1 + 1074).toNat
            = ((Double.magnitude rank).exponent + 1074).toNat + 1 := by omega
        have hmantissa : (4 * twoTo 52 - 1) * 2
            = 4 * (Double.magnitude rank).mantissa + 2 := by
          omega
        rw [hnext, hwider, hshift, twoTo_succ (Int.toNat _), ← Nat.two_mul,
          ← Nat.mul_assoc, hmantissa]

/-- Every interval has an inside. -/
theorem lowEnd_lt_highEnd (rank : Nat) : lowEnd rank < highEnd rank := by
  rw [lowEnd_eq, highEnd]
  exact Nat.mul_lt_mul_of_pos_right (by omega) (twoTo_pos _)

/-- An interval lies below those of the greater ranks. -/
theorem highEnd_le_lowEnd (h : rank < s) : highEnd rank ≤ lowEnd s := by
  induction s with
  | zero => exact absurd h (Nat.not_lt_zero rank)
  | succ s ih =>
      rcases Nat.lt_or_eq_of_le (Nat.le_of_lt_succ h) with hlt | rfl
      · exact Nat.le_of_lt (Nat.lt_of_le_of_lt (ih hlt) (lowEnd_lt_highEnd s))
      · exact Nat.le_refl _

/-- Only neighbours share an end. -/
theorem eq_succ_of_highEnd_eq (h : rank < s)
    (hends : highEnd rank = lowEnd s) : s = rank + 1 := by
  cases s with
  | zero => exact absurd h (Nat.not_lt_zero rank)
  | succ s =>
      rcases Nat.lt_or_eq_of_le (Nat.le_of_lt_succ h) with hlt | rfl
      · have hbelow :=
          Nat.lt_of_le_of_lt (highEnd_le_lowEnd hlt) (lowEnd_lt_highEnd s)
        exact absurd hends (Nat.ne_of_lt hbelow)
      · rfl

-- ============================================================== rounding

/-- The decimal as a quotient, in the unit of the ends. -/
def Decimal.numerator (d : Decimal) : Nat :=
  d.digits * tenTo d.exponent.toNat * twoTo 1076

/-- What it is a quotient by. -/
def Decimal.denominator (d : Decimal) : Nat := tenTo (-d.exponent).toNat

theorem Decimal.denominator_pos (d : Decimal) : 0 < d.denominator :=
  tenTo_pos _

/-- A decimal against so many quarters of a spacing. -/
theorem compareScaled_quarters (rank quarters : Nat) (d : Decimal) :
    compareScaled d.digits d.exponent quarters
      ((Double.magnitude rank).exponent - 2)
      = compare d.numerator
          (quarters * twoTo ((Double.magnitude rank).exponent + 1074).toNat
            * d.denominator) := by
  have hexponent := neg_le_exponent rank
  have hunit : (Double.magnitude rank).exponent - 2 + 1076
      = (Double.magnitude rank).exponent + 1074 := by omega
  rw [compareScaled_eq _ _ _ (by omega), hunit, Decimal.numerator,
    Decimal.denominator]

/-- A decimal rounds to a magnitude if it lies in its interval; the ends
belong to the interval if the rank is even. -/
theorem roundsTo_iff :
    roundsTo rank d = true
      ↔ (lowEnd rank * d.denominator < d.numerator
          ∨ rank % 2 = 0 ∧ d.numerator = lowEnd rank * d.denominator)
        ∧ (d.numerator < highEnd rank * d.denominator
          ∨ rank % 2 = 0 ∧ d.numerator = highEnd rank * d.denominator) := by
  rw [lowEnd_eq, highEnd]
  unfold roundsTo
  simp only [← gap.eq_1, compareScaled_quarters, mantissa_mod_two]
  simp only [Bool.and_eq_true, Bool.or_eq_true, beq_iff_eq, Nat.compare_eq_gt,
    Nat.compare_eq_lt, Nat.compare_eq_eq]

theorem roundsTo_congr (hnumerator : d.numerator = d'.numerator)
    (hdenominator : d.denominator = d'.denominator) :
    roundsTo rank d = roundsTo rank d' := by
  rw [Bool.eq_iff_iff, roundsTo_iff, roundsTo_iff, hnumerator, hdenominator]

theorem not_roundsTo_of_lt (h : rank < s) (hrank : roundsTo rank d = true) :
    ¬roundsTo s d = true := by
  intro hs
  obtain ⟨-, hhigh⟩ := roundsTo_iff.1 hrank
  obtain ⟨hlow, -⟩ := roundsTo_iff.1 hs
  have hbetween : highEnd rank * d.denominator ≤ lowEnd s * d.denominator :=
    Nat.mul_le_mul_right _ (highEnd_le_lowEnd h)
  -- the decimal can only be an end that both intervals have
  obtain ⟨heven, hend⟩ : rank % 2 = 0
      ∧ d.numerator = highEnd rank * d.denominator := by omega
  obtain ⟨hevens, hends⟩ : s % 2 = 0
      ∧ d.numerator = lowEnd s * d.denominator := by omega
  have hshared : highEnd rank = lowEnd s :=
    Nat.eq_of_mul_eq_mul_right d.denominator_pos (hend.symm.trans hends)
  have hneighbour := eq_succ_of_highEnd_eq h hshared
  omega

/-- A decimal rounds to one magnitude at most. -/
theorem rank_unique (hrank : roundsTo rank d = true)
    (hs : roundsTo s d = true) : rank = s := by
  rcases Nat.lt_trichotomy rank s with h | h | h
  · exact absurd hs (not_roundsTo_of_lt h hrank)
  · exact h
  · exact absurd hrank (not_roundsTo_of_lt h hs)

-- =============================================================== shortest

/-- Trailing zeros do not matter for the rounding. -/
theorem roundsTo_stripZeros (fuel : Nat) (d : Decimal) :
    roundsTo rank (stripZeros fuel d) = roundsTo rank d := by
  induction fuel generalizing d with
  | zero => rfl
  | succ fuel ih =>
      rw [stripZeros]
      split
      case isTrue hzero =>
          have hdigits : d.digits = d.digits / 10 * 10 := by omega
          rw [ih]
          unfold roundsTo
          simp only [← compareScaled_ten, ← hdigits]
      case isFalse => rfl

/-- The magnitude itself as a decimal. -/
def exactDecimal (x : Double.Magnitude) : Decimal :=
  ⟨x.mantissa * twoTo x.exponent.toNat * Nat.pow 5 (-x.exponent).toNat,
    min x.exponent 0⟩

/-- In quarters of its spacing a magnitude is four mantissas. -/
theorem compareScaled_exactDecimal (x : Double.Magnitude) (quarters : Nat) :
    compareScaled (exactDecimal x).digits (exactDecimal x).exponent quarters
      (x.exponent - 2)
      = compare (4 * x.mantissa) quarters := by
  have hten : ∀ n, tenTo n = Nat.pow 5 n * twoTo n :=
    fun n => Nat.mul_pow 5 2 n
  have hfour : twoTo 2 = 4 := rfl
  unfold compareScaled exactDecimal
  simp only
  generalize x.mantissa = mantissa
  generalize x.exponent = e
  have hmin : (min e 0).toNat = 0 := by omega
  have hdown : (-min e 0).toNat = (-e).toNat := by omega
  have hshift : e.toNat + (-(e - 2)).toNat
      = 2 + ((e - 2).toNat + (-e).toNat) := by omega
  -- a power of ten is one of five and one of two
  have hleft : mantissa * twoTo e.toNat * Nat.pow 5 (-e).toNat * tenTo 0
      * twoTo (-(e - 2)).toNat
      = 4 * mantissa * (twoTo (e - 2).toNat * tenTo (-e).toNat) :=
    calc mantissa * twoTo e.toNat * Nat.pow 5 (-e).toNat * 1
           * twoTo (-(e - 2)).toNat
        = mantissa * Nat.pow 5 (-e).toNat
          * (twoTo e.toNat * twoTo (-(e - 2)).toNat) := by
          rw [Nat.mul_one, Nat.mul_right_comm mantissa, Nat.mul_assoc]
      _ = mantissa * Nat.pow 5 (-e).toNat
        * (4 * (twoTo (e - 2).toNat * twoTo (-e).toNat)) := by
          rw [← twoTo_add, hshift, twoTo_add, twoTo_add, hfour]
      _ = mantissa * 4
        * (Nat.pow 5 (-e).toNat * (twoTo (e - 2).toNat * twoTo (-e).toNat)) :=
          Nat.mul_mul_mul_comm ..
      _ = 4 * mantissa * (twoTo (e - 2).toNat * tenTo (-e).toNat) := by
          rw [hten, Nat.mul_comm mantissa, Nat.mul_left_comm (Nat.pow 5 _)]
  rw [hmin, hdown, hleft, Nat.mul_assoc quarters,
    compare_mul_right (Nat.mul_pos (twoTo_pos _) (tenTo_pos _))]

theorem roundsTo_exactDecimal (h : rank ≠ 0) :
    roundsTo rank (exactDecimal (Double.magnitude rank)) = true := by
  have hmantissa := mantissa_pos h
  have hgap := gap_pos rank
  unfold roundsTo
  simp only [← gap.eq_1, compareScaled_exactDecimal]
  have hlow : compare (4 * (Double.magnitude rank).mantissa)
      (4 * (Double.magnitude rank).mantissa - gap rank) = .gt :=
    Nat.compare_eq_gt.2 (by omega)
  have hhigh : compare (4 * (Double.magnitude rank).mantissa)
      (4 * (Double.magnitude rank).mantissa + 2) = .lt :=
        Nat.compare_eq_lt.2 (by omega)
  rw [hlow, hhigh]
  rfl

/-- The shortest decimal of a magnitude other than zero rounds to it. -/
theorem roundsTo_shortest (tie : Tie) (h : rank ≠ 0) :
    roundsTo rank (shortest tie rank) = true := by
  unfold shortest
  simp only
  split
  next d hfound =>
      obtain ⟨n, -, hgrid⟩ := List.exists_of_findSome?_eq_some hfound
      rw [roundsTo_stripZeros]
      exact roundsTo_of_onGrid? hgrid
  next => exact roundsTo_exactDecimal h

end GridScript.Number
