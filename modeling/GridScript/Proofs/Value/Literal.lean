/-
What literals look like from outside. Whatever a value holds, its literal
is one unbroken text that neither begins nor ends with a blank: texts are
quoted, and the notation of a number holds no blank at all. A literal can
stand behind an equals sign or between parentheses and its line is still
one line, which no trimming changes.
-/
import GridScript.Proofs.Script.Quoted
import GridScript.Proofs.Text.Word
import GridScript.Value.Literal

namespace GridScript

namespace Text

-- ========================================================== solid texts

/-- No blank occurs in the text. -/
def Solid (t : Text) : Prop := ∀ c ∈ t, isBlank c = false

theorem solid_iff_all {t : Text} :
    (t.all fun c => !isBlank c) = true ↔ Solid t := by
  simp [Solid]

instance (t : Text) : Decidable (Solid t) := decidable_of_iff _ solid_iff_all

@[simp] theorem solid_append {a b : Text} :
    Solid (a ++ b) ↔ Solid a ∧ Solid b :=
  List.forall_mem_append

@[simp] theorem solid_cons {c : Char} {t : Text} :
    Solid (c :: t) ↔ isBlank c = false ∧ Solid t := List.forall_mem_cons

theorem Solid.of_subset {a b : Text} (h : Solid b) (hsub : a ⊆ b) : Solid a :=
  fun c hc => h c (hsub hc)

/-- A line break is a blank. -/
theorem Solid.unbroken {t : Text} (h : Solid t) : Unbroken t :=
  unbroken_of_forall (p := fun c => !isBlank c)
    (fun c hc => by rw [h c hc]; rfl) (by decide)
    (by decide)

theorem IsWord.solid {w : Text} (h : IsWord w) : Solid w := h.isBlank

-- ========================================================= framed texts

/-- The text begins and ends with a character that is no blank. -/
structure Framed (t : Text) : Prop where
  first : ∃ c rest, t = c :: rest ∧ isBlank c = false
  last : ∃ c, t.getLast? = some c ∧ isBlank c = false

/-- A solid text is framed if it is a text at all. -/
theorem Solid.framed {t : Text} (h : Solid t) (hne : t ≠ []) : Framed t := by
  refine ⟨?_, ?_⟩
  · cases t with
    | nil => exact absurd rfl hne
    | cons c rest => exact ⟨c, rest, rfl, h c List.mem_cons_self⟩
  · refine ⟨t.getLast hne, List.getLast?_eq_some_getLast hne,
      h _ (List.getLast_mem hne)⟩

/-- What stands between framed texts does not matter. -/
theorem Framed.append {a b : Text} (ha : Framed a) (hb : Framed b)
    (middle : Text) :
    Framed (a ++ middle ++ b) := by
  obtain ⟨c, rest, rfl, hc⟩ := ha.first
  obtain ⟨d, hlast, hd⟩ := hb.last
  refine ⟨⟨c, rest ++ middle ++ b, rfl, hc⟩, d, ?_, hd⟩
  rw [List.getLast?_append, hlast]
  rfl

theorem Framed.trimEnd {t : Text} (h : Framed t) : trimEnd t = t := by
  obtain ⟨d, hlast, hd⟩ := h.last
  exact trimEnd_of_getLast hlast hd

theorem Framed.trim {t : Text} (h : Framed t) : trim t = t := by
  obtain ⟨c, rest, rfl, hc⟩ := h.first
  rw [trim_of_head hc]
  exact h.trimEnd

theorem framed_ends {c d : Char} (hc : isBlank c = false)
    (hd : isBlank d = false) (t : Text) :
    Framed (c :: t ++ [d]) :=
  ⟨⟨c, t ++ [d], rfl, hc⟩, d, List.getLast?_concat, hd⟩

/-- Parts that are unbroken are unbroken when they are joined. -/
theorem unbroken_joinWith {sep : Text} (hsep : Unbroken sep)
    {parts : List Text} (h : ∀ p ∈ parts, Unbroken p) :
    Unbroken (joinWith sep parts) := by
  fun_induction joinWith sep parts with
  | case1 => exact unbroken_nil
  | case2 part => exact h part List.mem_cons_self
  | case3 part parts hne ih =>
      simp only [unbroken_append]
      exact ⟨⟨h part List.mem_cons_self, hsep⟩,
        ih fun p hp => h p (List.mem_cons_of_mem part hp)⟩

end Text

open Text (Solid Framed Unbroken isBlank)

-- =============================================================== numbers

namespace Number

theorem isDigits_iff {t : Text} :
    isDigits t = true ↔ t ≠ [] ∧ ∀ c ∈ t, c.isDigit = true := by
  simp [isDigits]

theorem isDigit_of_mem_decimal {n : Nat} {c : Char} (h : c ∈ decimal n) :
    c.isDigit = true :=
  Nat.isDigit_of_mem_toDigits (by decide) (by decide) h

theorem decimal_ne_nil (n : Nat) : decimal n ≠ [] := Nat.toDigits_ne_nil

/-- A number can be told from its digits. -/
theorem decimal_injective {m n : Nat} (h : decimal m = decimal n) : m = n := by
  have hread := congrArg (fun digits => Nat.ofDigitChars 10 digits 0) h
  unfold decimal at hread
  simpa only [Nat.ofDigitChars_toDigits (by decide : 1 < 10)
    (Nat.le_refl 10)] using hread

theorem isWordChar_of_isDigit {c : Char} (h : c.isDigit = true) :
    Text.isWordChar c = true := by
  unfold Text.isWordChar Char.isAlphanum
  rw [h]
  simp

theorem solid_decimal (n : Nat) : Solid (decimal n) := fun _ hc =>
  Text.isBlank_of_isWordChar
    (isWordChar_of_isDigit (isDigit_of_mem_decimal hc))

theorem solid_zeros (n : Nat) : Solid (zeros n) := by
  intro c hc
  rw [List.eq_of_mem_replicate hc]
  decide

theorem solid_plainDecimal (d : Decimal) : Solid (plainDecimal d) := by
  have hdigits := solid_decimal d.digits
  unfold plainDecimal
  simp only
  split
  case isTrue =>
      rw [Text.solid_append]
      exact ⟨hdigits, solid_zeros _⟩
  case isFalse =>
      split
      case isTrue =>
          simp only [Text.solid_cons, Text.solid_append]
          exact ⟨by decide, by decide, solid_zeros _, hdigits⟩
      case isFalse =>
          simp only [Text.solid_cons, Text.solid_append]
          exact ⟨hdigits.of_subset (List.take_subset _ _), by decide,
            hdigits.of_subset (List.drop_subset _ _)⟩

theorem plainDecimal_ne_nil (d : Decimal) : plainDecimal d ≠ [] := by
  have hdigits := decimal_ne_nil d.digits
  unfold plainDecimal
  simp only
  split
  case isTrue => exact fun h => hdigits (List.append_eq_nil_iff.1 h).1
  case isFalse => split <;> simp

end Number

-- ================================================================= calls

namespace Literal

/-- A number is written without blanks. -/
theorem solid_number (x : Double) : Solid (number x) := by
  unfold number
  split
  case h_1 => decide
  case h_2 => decide
  case h_3 => decide
  case h_4 s rank =>
      by_cases hzero : rank.val = 0
      · rw [if_pos hzero]
        decide
      · rw [if_neg hzero, Number.plain, if_neg hzero]
        have hplain := Number.solid_plainDecimal (Number.shortest .up rank)
        cases s with
        | false => exact hplain
        | true => exact Text.solid_cons.2 ⟨by decide, hplain⟩

theorem number_ne_nil (x : Double) : number x ≠ [] := by
  unfold number
  split
  case h_1 => decide
  case h_2 => decide
  case h_3 => decide
  case h_4 s rank =>
      by_cases hzero : rank.val = 0
      · rw [if_pos hzero]
        decide
      · rw [if_neg hzero, Number.plain, if_neg hzero]
        have hplain := Number.plainDecimal_ne_nil (Number.shortest .up rank)
        cases s with
        | false => exact hplain
        | true => exact List.cons_ne_nil _ _

theorem unbroken_number (x : Double) : Unbroken (number x) :=
  (solid_number x).unbroken

/-- A call is unbroken if its parts are. -/
theorem unbroken_call {function : String} (hname : Unbroken function.toList)
    {args : List Text} (h : ∀ a ∈ args, Unbroken a) :
    Unbroken (call function args) := by
  have hcomma : Unbroken ", ".toList := by decide
  have hargs := Text.unbroken_joinWith hcomma h
  unfold call
  simp only [Text.unbroken_append, Text.unbroken_cons]
  exact ⟨⟨hname, by decide, hargs⟩, by decide⟩

theorem unbroken_list {items : List Text} (h : ∀ i ∈ items, Unbroken i) :
    Unbroken (list items) := by
  have hcomma : Unbroken ", ".toList := by decide
  have hitems := Text.unbroken_joinWith hcomma h
  unfold list
  simp only [Text.unbroken_append, Text.unbroken_cons]
  exact ⟨⟨by decide, hitems⟩, by decide⟩

theorem unbroken_texts (items : List Text) : Unbroken (texts items) := by
  refine unbroken_list ?_
  intro i hi
  obtain ⟨t, -, rfl⟩ := List.mem_map.1 hi
  exact Script.unbroken_quote t

theorem unbroken_rect (r : Rect) : Unbroken (rect r) := by
  refine unbroken_call (by decide) ?_
  intro a ha
  simp only [List.mem_cons, List.not_mem_nil, or_false] at ha
  rcases ha with rfl | rfl | rfl | rfl <;> exact unbroken_number _

theorem unbroken_bandArguments (b : LabelBands) :
    ∀ a ∈ bandArguments b, Unbroken a := by
  have hcount : ∀ (name : Text) (n : Nat), Unbroken name →
      Unbroken (name ++ Number.decimal n) := fun name n hname =>
    Text.unbroken_append.2 ⟨hname, (Number.solid_decimal n).unbroken⟩
  intro a ha
  simp only [bandArguments, List.mem_cons, List.not_mem_nil, or_false] at ha
  rcases ha with rfl | rfl | rfl | rfl <;> exact hcount _ _ (by decide)

theorem unbroken_bands (b : LabelBands) : Unbroken (bands b) :=
  unbroken_call (by decide) (unbroken_bandArguments b)

end Literal

-- ================================================================ values

namespace Value

open Script (unbroken_quote)

/-- The literal of a value is unbroken. -/
theorem unbroken_literal (v : Value) : Unbroken v.literal := by
  have hcall : ∀ function : String, Unbroken function.toList → ∀ t,
      Unbroken (Literal.call function [Script.quote t]) := by
    intro function hname t
    refine Literal.unbroken_call hname ?_
    intro a ha
    rw [List.mem_singleton.1 ha]
    exact unbroken_quote t
  cases v with
  | text t => exact unbroken_quote t
  | number x => exact Literal.unbroken_number x
  | boolean b => cases b <;> decide
  | date d => exact hcall "date_value" (by decide) d.text
  | time s => exact hcall "time_value" (by decide) (TimeOfDay.text s)
  | empty => decide

/-- The literal of a value is framed. -/
theorem framed_literal (v : Value) : Framed v.literal := by
  cases v with
  | text t => exact Text.framed_ends (by decide) (by decide) _
  | number x => exact (Literal.solid_number x).framed (Literal.number_ne_nil x)
  | boolean b => cases b <;> exact Text.Solid.framed (by decide) (by decide)
  | date d => exact Text.framed_ends (c := 'd') (by decide) (by decide) _
  | time s => exact Text.framed_ends (c := 't') (by decide) (by decide) _
  | empty => exact Text.Solid.framed (by decide) (by decide)

end Value

end GridScript
