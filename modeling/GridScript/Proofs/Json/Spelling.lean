/-
What is spelled as a number is read as one. A natural number is spelled with
its digits and a double with a point or an exponent; neither has a zero in
front that does not stand alone. A double that is not finite has no spelling
as a number.
-/
import GridScript.Proofs.Json.Numbers
import GridScript.Proofs.Number.Decimal
import GridScript.Proofs.Number.Shortest

namespace GridScript

namespace Json

open Number
  (decimal zeros plainDecimal exponentDecimal jsonMagnitude
    isDigit_of_mem_decimal decimal_ne_nil)

-- ================================================================= parts

/-- One or more digits. -/
def IsDigits (t : Text) : Prop := t ≠ [] ∧ ∀ c ∈ t, c.isDigit = true

/-- Digits without a zero in front that is followed by more. -/
def IsWhole (t : Text) : Prop :=
  IsDigits t ∧ (t.head? = some '0' → t.length = 1)

/-- Nothing, or a point and digits. -/
def IsFraction (t : Text) : Prop :=
  t = [] ∨ ∃ digits, IsDigits digits ∧ t = '.' :: digits

/-- Nothing, or an exponent with its sign. -/
def IsExponent (t : Text) : Prop :=
  t = [] ∨ ∃ s digits, (s = '+' ∨ s = '-') ∧ IsDigits digits
    ∧ t = 'e' :: s :: digits

section Parts

variable {whole fraction exponent u : Text}

theorem readWhole?_whole (h : IsWhole whole) (hstop : stopsDigits u = true) :
    readWhole? (whole ++ u) = some (whole, u) := by
  obtain ⟨⟨hne, hdigits⟩, hzero⟩ := h
  unfold readWhole?
  rw [readDigits?_digits hne hdigits hstop, Option.bind_eq_bind,
    Option.bind_some]
  simp only
  rw [if_neg]
  · rfl
  · rintro ⟨hhead, hlong⟩
    rw [hzero hhead] at hlong
    exact Nat.lt_irrefl 1 hlong

theorem readFraction?_none (h : u.head? ≠ some '.') :
    readFraction? u = some ([], u) := by
  unfold readFraction?
  split
  next => exact absurd rfl h
  next => rfl

theorem readFraction?_fraction (h : IsFraction fraction)
    (hstop : stopsDigits u = true) (hpoint : u.head? ≠ some '.') :
    readFraction? (fraction ++ u) = some (fraction, u) := by
  rcases h with rfl | ⟨digits, ⟨hne, hdigits⟩, rfl⟩
  · exact readFraction?_none hpoint
  · show (readDigits? (digits ++ u)).map _ = _
    rw [readDigits?_digits hne hdigits hstop]
    rfl

theorem readExponent?_exponent (h : IsExponent exponent) :
    readExponent? exponent = some (exponent, []) := by
  rcases h with rfl | ⟨s, digits, hs, ⟨hne, hdigits⟩, rfl⟩
  · rfl
  · have hread : readDigits? digits = some (digits, []) := by
      have hread := readDigits?_digits (u := []) hne hdigits rfl
      rwa [List.append_nil] at hread
    rw [readExponent?_mark (Or.inl rfl), if_pos hs, hread]
    rfl

/-- Parts of a number are read as the number that they make up. -/
theorem readUnsigned?_parts (hwhole : IsWhole whole)
    (hfraction : IsFraction fraction) (hexponent : IsExponent exponent) :
    readUnsigned? (whole ++ fraction ++ exponent)
      = some (whole ++ fraction ++ exponent, []) := by
  have hmark : stopsDigits exponent = true ∧ exponent.head? ≠ some '.' := by
    rcases hexponent with rfl | ⟨s, digits, -, -, rfl⟩
    · exact ⟨rfl, nofun⟩
    · exact ⟨rfl, by simp⟩
  have hpoint : stopsDigits (fraction ++ exponent) = true := by
    rcases hfraction with rfl | ⟨digits, -, rfl⟩
    · exact hmark.1
    · rfl
  unfold readUnsigned?
  rw [List.append_assoc, readWhole?_whole hwhole hpoint, Option.bind_eq_bind,
    Option.bind_some]
  simp only
  rw [readFraction?_fraction hfraction hmark.1 hmark.2, Option.bind_some]
  simp only
  rw [readExponent?_exponent hexponent]
  simp

end Parts

-- ======================================================= natural numbers

theorem isDigits_decimal (n : Nat) : IsDigits (decimal n) :=
  ⟨decimal_ne_nil n, fun _ => isDigit_of_mem_decimal⟩

theorem isDigits_zero : IsDigits ['0'] :=
  ⟨List.cons_ne_nil _ _, List.forall_mem_singleton.2 rfl⟩

theorem isWhole_zero : IsWhole ['0'] := ⟨isDigits_zero, fun _ => rfl⟩

theorem IsDigits.append {a b : Text} (ha : IsDigits a)
    (hb : ∀ c ∈ b, c.isDigit = true) :
    IsDigits (a ++ b) :=
  ⟨by simp [ha.1], List.forall_mem_append.2 ⟨ha.2, hb⟩⟩

theorem isWhole_decimal (n : Nat) : IsWhole (decimal n) := by
  refine ⟨isDigits_decimal n, fun hzero => ?_⟩
  by_cases hn : n = 0
  · subst hn
    decide
  · exact absurd hzero (Number.head_decimal hn)

theorem readNumber?_unsigned {whole fraction exponent : Text}
    (hwhole : IsWhole whole) (hfraction : IsFraction fraction)
    (hexponent : IsExponent exponent) :
    readNumber? (whole ++ fraction ++ exponent)
      = some (whole ++ fraction ++ exponent, []) := by
  rw [← readUnsigned?_parts hwhole hfraction hexponent]
  obtain ⟨c, rest, rfl⟩ := List.exists_cons_of_ne_nil hwhole.1.1
  unfold readNumber?
  split
  next heq =>
      injection heq with hc
      have hdigit := hwhole.1.2 c List.mem_cons_self
      rw [hc] at hdigit
      cases hdigit
  next => rfl

theorem readNumber?_decimal (n : Nat) :
    readNumber? (decimal n) = some (decimal n, []) := by
  have hread :=
    readNumber?_unsigned (isWhole_decimal n) (Or.inl rfl) (Or.inl rfl)
  rwa [List.append_nil, List.append_nil] at hread

-- =============================================================== doubles

/-- A number's text without its sign. -/
def IsUnsigned (t : Text) : Prop :=
  ∃ whole fraction exponent, IsWhole whole ∧ IsFraction fraction
    ∧ IsExponent exponent
    ∧ t = whole ++ fraction ++ exponent

theorem readNumber?_signed {t : Text} (h : IsUnsigned t) (negative : Bool) :
    readNumber? (Number.signed negative t)
      = some (Number.signed negative t, []) := by
  obtain ⟨whole, fraction, exponent, hwhole, hfraction, hexponent, rfl⟩ := h
  cases negative with
  | false => exact readNumber?_unsigned hwhole hfraction hexponent
  | true =>
      show (readUnsigned? _).map _ = _
      rw [readUnsigned?_parts hwhole hfraction hexponent]
      rfl

section

variable {d : Number.Decimal}

theorem isUnsigned_plainDecimal_whole (h : d.digits ≠ 0)
    (hexponent : 0 ≤ d.exponent) :
    IsUnsigned (plainDecimal d ++ ".0".toList) := by
  have hplain : plainDecimal d
      = decimal d.digits ++ zeros d.exponent.toNat := by
    unfold plainDecimal
    simp only
    rw [if_pos (by omega)]
  have hzeros : ∀ c ∈ zeros d.exponent.toNat, c.isDigit = true := fun _ =>
    Number.isDigit_of_mem_zeros
  refine ⟨plainDecimal d, ".0".toList, [], ?_,
    Or.inr ⟨['0'], isDigits_zero, rfl⟩, Or.inl rfl, ?_⟩
  · rw [hplain]
    refine ⟨(isDigits_decimal d.digits).append hzeros, fun hzero => ?_⟩
    obtain ⟨c, rest, hdigits⟩ :=
      List.exists_cons_of_ne_nil (decimal_ne_nil d.digits)
    have hhead := Number.head_decimal h
    rw [hdigits] at hzero hhead
    exact absurd hzero hhead
  · rw [List.append_nil]

theorem isUnsigned_plainDecimal_fraction (h : d.digits ≠ 0)
    (hexponent : d.exponent < 0) :
    IsUnsigned (plainDecimal d) := by
  unfold plainDecimal
  simp only
  rw [if_neg (by omega)]
  generalize hplaces : (-d.exponent).toNat = places
  have hpositive : 0 < places := by omega
  split
  case isTrue =>
      refine ⟨['0'], _, [], isWhole_zero, Or.inr ⟨_, ?_, rfl⟩, Or.inl rfl,
        (List.append_nil _).symm⟩
      refine ⟨by simp [decimal_ne_nil], fun c hc => ?_⟩
      rcases List.mem_append.1 hc with hc | hc
      · exact Number.isDigit_of_mem_zeros hc
      · exact isDigit_of_mem_decimal hc
  case isFalse hlong =>
      -- the digits in front of the point begin as the number does, so not with
      -- a zero
      generalize hsplit : (decimal d.digits).length - places = k
      have hk : 0 < k := by omega
      refine ⟨_, _, [], ?_, Or.inr ⟨_, ?_, rfl⟩, Or.inl rfl,
        (List.append_nil _).symm⟩
      · refine ⟨⟨?_, fun c hc => isDigit_of_mem_decimal
          (List.mem_of_mem_take hc)⟩, fun hzero => ?_⟩
        · rw [Ne, List.take_eq_nil_iff]
          simp [decimal_ne_nil, Nat.ne_of_gt hk]
        · rw [List.head?_take, if_neg (Nat.ne_of_gt hk)] at hzero
          exact absurd hzero (Number.head_decimal h)
      · refine ⟨?_,
          fun c hc => isDigit_of_mem_decimal (List.mem_of_mem_drop hc)⟩
        rw [Ne, List.drop_eq_nil_iff]
        omega

theorem isUnsigned_exponentDecimal : IsUnsigned (exponentDecimal d) := by
  unfold exponentDecimal
  simp only
  obtain ⟨c, rest, hdigits⟩ :=
    List.exists_cons_of_ne_nil (decimal_ne_nil d.digits)
  have hall : ∀ e ∈ c :: rest, e.isDigit = true := by
    rw [← hdigits]
    exact fun _ => isDigit_of_mem_decimal
  have hfirst : IsWhole [c] :=
    ⟨⟨List.cons_ne_nil c [],
      fun e he => hall e (List.mem_singleton.1 he ▸ List.mem_cons_self)⟩,
        fun _ => rfl⟩
  rw [hdigits]
  generalize (d.exponent + (c :: rest).length - 1 : Int) = exponent
  have hexponent : IsExponent
      ('e' :: (if exponent < 0 then '-' else '+')
        :: decimal exponent.natAbs) := by
    refine Or.inr ⟨_, _, ?_, isDigits_decimal _, rfl⟩
    split
    · exact Or.inr rfl
    · exact Or.inl rfl
  cases rest with
  | nil => exact ⟨[c], [], _, hfirst, Or.inl rfl, hexponent, rfl⟩
  | cons e rest =>
      have hfraction : IsDigits (e :: rest) :=
        ⟨List.cons_ne_nil e rest,
          fun f hf => hall f (List.mem_cons_of_mem c hf)⟩
      exact ⟨[c], _, _, hfirst, Or.inr ⟨_, hfraction, rfl⟩, hexponent, rfl⟩

theorem isUnsigned_jsonMagnitude (h : d.digits ≠ 0) :
    IsUnsigned (jsonMagnitude d) := by
  unfold jsonMagnitude
  simp only
  split
  case isTrue =>
      split
      case isTrue hexponent => exact isUnsigned_plainDecimal_whole h hexponent
      case isFalse hexponent =>
          rw [List.append_nil]
          exact isUnsigned_plainDecimal_fraction h (by omega)
  case isFalse => exact isUnsigned_exponentDecimal

end

/-- A finite double is spelled as a number. -/
theorem readNumber?_double {x : Double} (h : x.isFinite = true) :
    readNumber? (Number.json x) = some (Number.json x, []) := by
  cases x with
  | nan => cases h
  | infinite negative => cases h
  | finite negative rank =>
      refine readNumber?_signed ?_ negative
      split
      case isTrue =>
          exact ⟨['0'], ".0".toList, [], isWhole_zero,
            Or.inr ⟨['0'], isDigits_zero, rfl⟩, Or.inl rfl, rfl⟩
      case isFalse hrank =>
          exact isUnsigned_jsonMagnitude
            (Number.digits_shortest_ne_zero .even hrank)

end Json

end GridScript
