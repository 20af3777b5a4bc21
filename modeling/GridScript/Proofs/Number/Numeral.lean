/-
The grammar of numerals, as `isNumeral` reads it (`isNumeral_iff`): a sign
or none, digits with at most one point in front of, among or behind them,
and an exponent or none, which has a mark, a sign or none, and digits.

The parts of a numeral are told by what they cannot hold. No mark of an
exponent stands in a mantissa, so the first one ends it; and a mantissa
begins with no sign, so one that comes first is the numeral's.
-/
import GridScript.Proofs.Number.Plain

namespace GridScript.Number

variable {t : Text}

-- =============================================================== grammar

/-- What may stand in front of digits. -/
def signs : List Text := [[], ['+'], ['-']]

/-- Digits, with one point or none. -/
inductive Mantissa : Text → Prop
  | whole {digits : Text} (h : Digits digits)
    (hne : digits ≠ []) : Mantissa digits
  | point {whole places : Text} (hwhole : Digits whole)
    (hplaces : Digits places) (hne : whole ++ places ≠ []) :
    Mantissa (whole ++ '.' :: places)

/-- The power of ten behind a mantissa, or nothing. -/
inductive Exponent : Text → Prop
  | none : Exponent []
  | power {mark : Char} {sign digits : Text} (hmark : mark = 'e' ∨ mark = 'E')
    (hsign : sign ∈ signs) (h : Digits digits) (hne : digits ≠ []) :
    Exponent (mark :: (sign ++ digits))

/-- A number as it is written. -/
def Numeral (t : Text) : Prop :=
  ∃ sign mantissa exponent, t = sign ++ (mantissa ++ exponent)
    ∧ sign ∈ signs ∧ Mantissa mantissa ∧ Exponent exponent

-- ================================================================= signs

theorem unsigned_of_head? (h : ∀ c ∈ t.head?, c ≠ '+' ∧ c ≠ '-') :
    unsigned t = t := by
  unfold unsigned
  split
  next => exact absurd rfl (h '+' rfl).1
  next => exact absurd rfl (h '-' rfl).2
  next => rfl

/-- A text is a sign or none, and what is left without it. -/
theorem exists_sign (t : Text) : ∃ sign ∈ signs, t = sign ++ unsigned t := by
  unfold unsigned
  split
  next => exact ⟨['+'], by decide, rfl⟩
  next => exact ⟨['-'], by decide, rfl⟩
  next => exact ⟨[], by decide, rfl⟩

theorem unsigned_append {sign : Text} (hsign : sign ∈ signs)
    (h : ∀ c ∈ t.head?, c ≠ '+' ∧ c ≠ '-') : unsigned (sign ++ t) = t := by
  simp only [signs, List.mem_cons, List.not_mem_nil, or_false] at hsign
  rcases hsign with rfl | rfl | rfl
  · exact unsigned_of_head? h
  · rfl
  · rfl

-- ============================================================== mantissas

theorem Digits.count_point (h : Digits t) : t.count '.' = 0 :=
  List.count_eq_zero.2 fun hmem => absurd (h '.' hmem) (by decide)

/-- The characters of a mantissa, of which one at least is a digit. -/
theorem Mantissa.chars (h : Mantissa t) :
    (∀ c ∈ t, c.isDigit = true ∨ c = '.') ∧ ∃ c ∈ t, c.isDigit = true := by
  cases h with
  | whole h hne =>
      obtain ⟨c, rest, rfl⟩ := List.exists_cons_of_ne_nil hne
      exact ⟨fun d hd => Or.inl (h d hd), c, List.mem_cons_self,
        h c List.mem_cons_self⟩
  | @point whole places hwhole hplaces hne =>
      obtain ⟨c, rest, heq⟩ := List.exists_cons_of_ne_nil hne
      have hc : c ∈ whole ++ places := heq ▸ List.mem_cons_self
      have hsub : whole ++ places ⊆ whole ++ '.' :: places :=
        List.append_subset.2 ⟨List.subset_append_left _ _,
          fun d hd => List.mem_append_right _ (List.mem_cons_of_mem _ hd)⟩
      refine ⟨?_, c, hsub hc, digits_append.2 ⟨hwhole, hplaces⟩ c hc⟩
      intro d hd
      rcases List.mem_append.1 hd with hd | hd
      · exact Or.inl (hwhole d hd)
      · rcases List.mem_cons.1 hd with hd | hd
        · exact Or.inr hd
        · exact Or.inl (hplaces d hd)

theorem Mantissa.count_point_le (h : Mantissa t) : t.count '.' ≤ 1 := by
  cases h with
  | whole h _ =>
      have hnone := h.count_point
      omega
  | point hwhole hplaces _ =>
      have hfront := hwhole.count_point
      have hbehind := hplaces.count_point
      rw [List.count_append, List.count_cons_self]
      omega

/-- Digits and at most one point are cut at the point. -/
theorem mantissa_of_chars (hall : ∀ c ∈ t, c.isDigit = true ∨ c = '.')
    (hdigit : ∃ c ∈ t, c.isDigit = true) (hcount : t.count '.' ≤ 1) :
    Mantissa t := by
  have hdigits : ∀ {s : Text}, s ⊆ t → '.' ∉ s → Digits s := by
    intro s hsub hpoint c hc
    rcases hall c (hsub hc) with hchar | rfl
    · exact hchar
    · exact absurd hc hpoint
  obtain ⟨d, hd, hdigit⟩ := hdigit
  by_cases hpoint : '.' ∈ t
  · obtain ⟨whole, places, rfl, hwhole⟩ := List.eq_append_cons_of_mem hpoint
    rw [List.count_append, List.count_cons_self] at hcount
    have hplaces : '.' ∉ places := List.count_eq_zero.1 (by omega)
    refine .point (hdigits (List.subset_append_left _ _) hwhole)
      (hdigits ?_ hplaces) ?_
    · exact fun c hc => List.mem_append_right _ (List.mem_cons_of_mem _ hc)
    · intro hnil
      obtain ⟨rfl, rfl⟩ := List.append_eq_nil_iff.1 hnil
      rw [List.mem_singleton.1 hd] at hdigit
      cases hdigit
  · exact .whole (hdigits (List.Subset.refl t) hpoint) (List.ne_nil_of_mem hd)

theorem isMantissa_iff : isMantissa t = true ↔ Mantissa t := by
  unfold isMantissa
  simp only [Bool.and_eq_true, Bool.or_eq_true, List.all_eq_true,
    List.any_eq_true, decide_eq_true_iff, beq_iff_eq]
  constructor
  · rintro ⟨⟨hall, hdigit⟩, hcount⟩
    exact mantissa_of_chars hall hdigit hcount
  · intro h
    exact ⟨h.chars, h.count_point_le⟩

-- ============================================================== exponents

/-- A text without the mark of an exponent is not cut. -/
theorem cutExponent_append {a : Text} (h : ∀ c ∈ a, c ≠ 'e' ∧ c ≠ 'E')
    (b : Text) :
    cutExponent (a ++ b) = (a ++ (cutExponent b).1, (cutExponent b).2) := by
  induction a with
  | nil => rfl
  | cons c a ih =>
      obtain ⟨hc, hrest⟩ := List.forall_mem_cons.1 h
      rw [List.cons_append, cutExponent, if_neg (not_or.2 hc), ih hrest]
      rfl

theorem cutExponent_mark {mark : Char} (h : mark = 'e' ∨ mark = 'E') :
    cutExponent (mark :: t) = ([], some t) := by
  rw [cutExponent, if_pos h]

/-- A text is cut at the mark of an exponent, or not at all. -/
theorem cutExponent_cases (t : Text) :
    cutExponent t = (t, none)
      ∨ ∃ mantissa mark power, (mark = 'e' ∨ mark = 'E')
        ∧ t = mantissa ++ mark :: power
        ∧ cutExponent t = (mantissa, some power) := by
  induction t with
  | nil => exact Or.inl rfl
  | cons c t ih =>
      rw [cutExponent]
      split
      case isTrue hc => exact Or.inr ⟨[], c, t, hc, rfl, rfl⟩
      case isFalse =>
          rcases ih with hnone | ⟨mantissa, mark, power, hmark, heq, hcut⟩
          · rw [hnone]
            exact Or.inl rfl
          · rw [hcut]
            exact Or.inr
              ⟨c :: mantissa, mark, power, hmark, congrArg (c :: ·) heq, rfl⟩

/-- A mantissa begins with no sign and holds no mark of an exponent. -/
theorem Mantissa.plain (h : Mantissa t) {c : Char} (hc : c ∈ t) :
    (c ≠ 'e' ∧ c ≠ 'E') ∧ c ≠ '+' ∧ c ≠ '-' := by
  rcases h.chars.1 c hc with hdigit | rfl
  · refine ⟨⟨?_, ?_⟩, ?_, ?_⟩ <;> (rintro rfl; exact absurd hdigit (by decide))
  · decide

-- =============================================================== numerals

theorem numeral_of_isNumeral (h : isNumeral t = true) : Numeral t := by
  obtain ⟨sign, hsign, ht⟩ := exists_sign t
  unfold isNumeral at h
  rcases cutExponent_cases (unsigned t)
    with hcut | ⟨mantissa, mark, power, hmark, heq, hcut⟩
  · rw [hcut] at h
    refine ⟨sign, unsigned t, [], ?_, hsign, isMantissa_iff.1 h, .none⟩
    rw [List.append_nil]
    exact ht
  · rw [hcut, Bool.and_eq_true] at h
    obtain ⟨sign', hsign', hpower⟩ := exists_sign power
    obtain ⟨hne, hdigits⟩ := isDigits_iff.1 h.2
    refine ⟨sign, mantissa, mark :: power,
      ht.trans (congrArg (sign ++ ·) heq), hsign, isMantissa_iff.1 h.1, ?_⟩
    rw [hpower]
    exact .power hmark hsign' hdigits hne

theorem isNumeral_of_numeral (h : Numeral t) : isNumeral t = true := by
  obtain ⟨sign, mantissa, exponent, rfl, hsign, hmantissa, hexponent⟩ := h
  -- one sign is cut off, and the mantissa has none
  have hunsigned : unsigned (sign ++ (mantissa ++ exponent))
      = mantissa ++ exponent := by
    refine unsigned_append hsign fun c hc => ?_
    obtain ⟨d, hd, -⟩ := hmantissa.chars.2
    obtain ⟨c', rest, rfl⟩ :=
      List.exists_cons_of_ne_nil (List.ne_nil_of_mem hd)
    injection hc with hc
    exact hc ▸ (hmantissa.plain List.mem_cons_self).2
  have hread := isMantissa_iff.2 hmantissa
  unfold isNumeral
  rw [hunsigned, cutExponent_append fun c hc => (hmantissa.plain hc).1]
  cases hexponent with
  | none =>
      rw [← List.append_nil mantissa] at hread
      exact hread
  | @power mark sign' digits hmark hsign' hdigits hne =>
      have hpower : unsigned (sign' ++ digits) = digits := by
        refine unsigned_append hsign' fun c hc => ?_
        have hdigit := hdigits c (List.mem_of_mem_head? hc)
        constructor <;> (rintro rfl; exact absurd hdigit (by decide))
      rw [cutExponent_mark hmark]
      simp only [List.append_nil, hpower, hread, isDigits_iff.2 ⟨hne, hdigits⟩,
        Bool.and_self]

theorem isNumeral_iff : isNumeral t = true ↔ Numeral t :=
  ⟨numeral_of_isNumeral, isNumeral_of_numeral⟩

end GridScript.Number
