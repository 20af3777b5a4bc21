/-
Plain notation tells numbers apart. The digits of a plain text and the
place of its point say which decimal was written, up to zeros at its end
(`mantissaValue_plainDecimal`); a decimal rounds to one magnitude only; and
what is written for a magnitude rounds to it. So the text of a finite number
is that of no other (`plain_finite_inj`).
-/
import GridScript.Number.Reading
import GridScript.Proofs.Number.Decimal
import GridScript.Proofs.Number.Intervals
import GridScript.Proofs.Text.Cuts

namespace GridScript.Number

/-- All characters are digits. -/
def Digits (t : Text) : Prop := ∀ c ∈ t, c.isDigit = true

theorem digits_append {a b : Text} : Digits (a ++ b) ↔ Digits a ∧ Digits b :=
  List.forall_mem_append

theorem digits_decimal (n : Nat) : Digits (decimal n) :=
  fun _ => isDigit_of_mem_decimal

theorem digits_zeros (k : Nat) : Digits (zeros k) :=
  fun _ => isDigit_of_mem_zeros

-- ================================================================ reading

section Reading

variable {whole places : Text}

theorem Digits.bne_point (h : Digits whole) :
    ∀ c ∈ whole, (c != '.') = true := by
  intro c hc
  rw [bne_iff_ne]
  rintro rfl
  exact absurd (h '.' hc) (by decide)

theorem mantissaValue_whole (h : Digits whole) :
    mantissaValue whole = (ofDigits 0 whole, 0) := by
  have hdrop : (whole ++ []).dropWhile (· != '.') = [] :=
    Text.dropWhile_run h.bne_point (by rintro c ⟨⟩)
  rw [List.append_nil] at hdrop
  unfold mantissaValue
  simp only [hdrop, List.filter_eq_self.2 h.bne_point]
  rfl

/-- The point shows in how many digits stand behind it. -/
theorem mantissaValue_point (hwhole : Digits whole) (hplaces : Digits places) :
    mantissaValue (whole ++ '.' :: places)
      = (ofDigits 0 (whole ++ places), places.length) := by
  have hdrop : (whole ++ '.' :: places).dropWhile (· != '.') = '.' :: places :=
    Text.dropWhile_run hwhole.bne_point (by rintro c ⟨⟩; rfl)
  have hpoint : ('.' :: places).filter (· != '.') = places := by
    rw [List.filter_cons_of_neg (by decide),
      List.filter_eq_self.2 hplaces.bne_point]
  unfold mantissaValue
  simp only [hdrop, List.filter_append, hpoint,
    List.filter_eq_self.2 hwhole.bne_point, List.drop_succ_cons,
    List.drop_zero]

/-- The plain text of a decimal is its digits, with zeros behind them or
with a point. -/
theorem plainDecimal_cases (d : Decimal) :
    ((-d.exponent).toNat = 0
      ∧ plainDecimal d = decimal d.digits ++ zeros d.exponent.toNat)
      ∨ (d.exponent.toNat = 0
        ∧ ∃ whole places, plainDecimal d = whole ++ '.' :: places
        ∧ Digits whole ∧ Digits places
        ∧ ofDigits 0 (whole ++ places) = d.digits
        ∧ places.length = (-d.exponent).toNat) := by
  have hdigits := digits_decimal d.digits
  unfold plainDecimal
  simp only
  by_cases hwhole : (-d.exponent).toNat = 0
  · rw [if_pos hwhole]
    exact Or.inl ⟨hwhole, rfl⟩
  · rw [if_neg hwhole]
    refine Or.inr ⟨by omega, ?_⟩
    by_cases hshort : (decimal d.digits).length ≤ (-d.exponent).toNat
    -- zeros in front make up for the digits that are missing
    · rw [if_pos hshort]
      refine ⟨zeros 1, zeros _ ++ decimal d.digits, rfl, digits_zeros 1,
        digits_append.2 ⟨digits_zeros _, hdigits⟩, ?_, ?_⟩
      · rw [ofDigits_zeros_append, ofDigits_zeros_append, ofDigits_decimal]
      · rw [List.length_append, zeros, List.length_replicate,
          Nat.sub_add_cancel hshort]
    -- the point stands among the digits
    · rw [if_neg hshort]
      have hlong := Nat.le_of_not_le hshort
      refine ⟨_, _, rfl, fun c hc => hdigits c (List.mem_of_mem_take hc),
        fun c hc => hdigits c (List.mem_of_mem_drop hc), ?_, ?_⟩
      · rw [List.take_append_drop, ofDigits_decimal]
      · rw [List.length_drop, Nat.sub_sub_self hlong]

/-- A plain text is read as the decimal it was written for. -/
theorem mantissaValue_plainDecimal (d : Decimal) :
    mantissaValue (plainDecimal d)
      = (d.digits * tenTo d.exponent.toNat, (-d.exponent).toNat) := by
  rcases plainDecimal_cases d with
    ⟨hplaces, htext⟩ | ⟨hzeros, whole, places, htext, hwhole, hdigits, hvalue,
      hlength⟩
  · rw [htext,
      mantissaValue_whole (digits_append.2 ⟨digits_decimal _, digits_zeros _⟩),
      hplaces, ofDigits_append, ofDigits_decimal, ofDigits_zeros]
  · have hone : tenTo 0 = 1 := rfl
    rw [htext, mantissaValue_point hwhole hdigits, hvalue, hlength, hzeros,
      hone, Nat.mul_one]

theorem mem_plainDecimal {d : Decimal} {c : Char} (h : c ∈ plainDecimal d) :
    c.isDigit = true ∨ c = '.' := by
  rcases plainDecimal_cases d
    with ⟨-, htext⟩ | ⟨-, whole, places, htext, hwhole, hdigits, -, -⟩
  · rw [htext] at h
    exact Or.inl (digits_append.2 ⟨digits_decimal _, digits_zeros _⟩ c h)
  · rw [htext, List.mem_append, List.mem_cons] at h
    rcases h with h | h | h
    · exact Or.inl (hwhole c h)
    · exact Or.inr h
    · exact Or.inl (hdigits c h)

end Reading

-- ================================================================ doubles

variable {rank other : Nat}

/-- No two magnitudes have one plain text. -/
theorem rank_eq_of_plainDecimal (tie : Tie) (hrank : rank ≠ 0)
    (hother : other ≠ 0)
    (h : plainDecimal (shortest tie rank)
      = plainDecimal (shortest tie other)) : rank = other := by
  have hvalue := congrArg mantissaValue h
  rw [mantissaValue_plainDecimal, mantissaValue_plainDecimal,
    Prod.mk.injEq] at hvalue
  obtain ⟨hdigits, hplaces⟩ := hvalue
  have hnumerator : (shortest tie rank).numerator
      = (shortest tie other).numerator :=
    congrArg (· * twoTo 1076) hdigits
  have hdenominator : (shortest tie rank).denominator
      = (shortest tie other).denominator :=
    congrArg tenTo hplaces
  refine rank_unique (roundsTo_shortest tie hrank) ?_
  rw [roundsTo_congr hnumerator hdenominator]
  exact roundsTo_shortest tie hother

/-- The plain text of a magnitude. -/
def plainMagnitude (rank : Nat) : Text :=
  if rank = 0 then ['0'] else plainDecimal (shortest .up rank)

theorem plain_finite (s : Bool) (rank : Fin Double.ranks) :
    plain (.finite s rank) = signed s (plainMagnitude rank) := rfl

theorem mem_plainMagnitude {c : Char} (h : c ∈ plainMagnitude rank) :
    c.isDigit = true ∨ c = '.' := by
  unfold plainMagnitude at h
  split at h
  · rw [List.mem_singleton.1 h]
    exact Or.inl rfl
  · exact mem_plainDecimal h

theorem plainMagnitude_inj (h : plainMagnitude rank = plainMagnitude other) :
    rank = other := by
  have hzero : ∀ {r}, r ≠ 0 → plainDecimal (shortest .up r) ≠ ['0'] := by
    intro r hr htext
    have hvalue := congrArg (fun t => (mantissaValue t).1) htext
    simp only [mantissaValue_plainDecimal] at hvalue
    have hpos :=
      Nat.mul_pos (Nat.pos_of_ne_zero (digits_shortest_ne_zero .up hr))
      (tenTo_pos (shortest .up r).exponent.toNat)
    exact Nat.ne_of_gt hpos hvalue
  unfold plainMagnitude at h
  by_cases hrank : rank = 0
  · by_cases hother : other = 0
    · rw [hrank, hother]
    · rw [if_pos hrank, if_neg hother] at h
      exact absurd h.symm (hzero hother)
  · by_cases hother : other = 0
    · rw [if_neg hrank, if_pos hother] at h
      exact absurd h (hzero hrank)
    · rw [if_neg hrank, if_neg hother] at h
      exact rank_eq_of_plainDecimal .up hrank hother h

theorem signed_inj {s t : Bool} {a b : Text} (ha : '-' ∉ a) (hb : '-' ∉ b)
    (h : signed s a = signed t b) : s = t ∧ a = b := by
  cases s with
  | false =>
      cases t with
      | false => exact ⟨rfl, h⟩
      | true =>
          have hsigned : a = '-' :: b := h
          exact absurd (hsigned ▸ List.mem_cons_self) ha
  | true =>
      cases t with
      | false =>
          have hsigned : '-' :: a = b := h
          exact absurd (hsigned ▸ List.mem_cons_self) hb
      | true => exact ⟨rfl, List.tail_eq_of_cons_eq h⟩

/-- No two finite numbers have one plain text. -/
theorem plain_finite_inj {s t : Bool} {rank other : Fin Double.ranks}
    (h : plain (.finite s rank) = plain (.finite t other)) :
    s = t ∧ rank = other := by
  have hdash : ∀ r, '-' ∉ plainMagnitude r := by
    intro r hmem
    rcases mem_plainMagnitude hmem with hdigit | hpoint
    · exact absurd hdigit (by decide)
    · exact absurd hpoint (by decide)
  rw [plain_finite, plain_finite] at h
  obtain ⟨hsign, hmagnitude⟩ := signed_inj (hdash _) (hdash _) h
  exact ⟨hsign, Fin.ext (plainMagnitude_inj hmagnitude)⟩

end GridScript.Number
