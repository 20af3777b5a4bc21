/-
Byte offsets of a text. An offset within a text lies between two characters
or inside of one (`CutsCharacter`), and the text is cut exactly at those
between two (`cutAtByte?_eq_some_iff`, `cutAtByte?_eq_none`). A character
takes at least one byte, so what stands before an offset is told by the
offset (`prefix_of_byteLength_le`).
-/
import GridScript.Text.Utf8

namespace GridScript.Text

-- ================================================================ lengths

@[simp] theorem byteLength_nil : byteLength [] = 0 := rfl

@[simp] theorem byteLength_cons (c : Char) (t : Text) :
    byteLength (c :: t) = c.utf8Size + byteLength t := rfl

@[simp] theorem byteLength_append (a b : Text) :
    byteLength (a ++ b) = byteLength a + byteLength b := by
  induction a with
  | nil => simp
  | cons c a ih => simp [ih, Nat.add_assoc]

theorem eq_nil_of_byteLength {t : Text} (h : byteLength t = 0) : t = [] := by
  cases t with
  | nil => rfl
  | cons c t =>
      have hpos := c.utf8Size_pos
      rw [byteLength_cons] at h
      omega

/-- Of two beginnings of a text the one of fewer bytes begins the other. -/
theorem prefix_of_byteLength_le {a b t : Text} (ha : a <+: t) (hb : b <+: t)
    (h : byteLength a ≤ byteLength b) : a <+: b := by
  rcases List.prefix_or_prefix_of_prefix ha hb with hab | ⟨rest, rfl⟩
  · exact hab
  · rw [byteLength_append] at h
    obtain rfl : rest = [] := eq_nil_of_byteLength (by omega)
    exact ⟨[], by rw [List.append_nil, List.append_nil]⟩

-- ================================================================== cuts

/-- The offset lies inside a character. -/
def CutsCharacter (t : Text) (n : Nat) : Prop :=
  ∃ before c after, t = before ++ c :: after ∧ byteLength before < n
    ∧ n < byteLength before + c.utf8Size

theorem cutAtByte?_eq_some_iff {n : Nat} {t before after : Text} :
    cutAtByte? n t = some (before, after)
      ↔ t = before ++ after ∧ byteLength before = n := by
  constructor
  · intro h
    fun_induction cutAtByte? n t generalizing before after with
    | case1 t =>
        cases h
        exact ⟨rfl, rfl⟩
    | case2 => cases h
    | case3 n c t hfits ih =>
        obtain ⟨⟨before', after'⟩, hcut, heq⟩ := Option.map_eq_some_iff.1 h
        cases heq
        obtain ⟨rfl, hlength⟩ := ih hcut
        exact ⟨rfl, by rw [byteLength_cons, hlength]; omega⟩
    | case4 => cases h
  · rintro ⟨rfl, rfl⟩
    induction before with
    | nil => rw [byteLength_nil, List.nil_append, cutAtByte?]
    | cons c before ih =>
        obtain ⟨n, hn⟩ : ∃ n, byteLength (c :: before) = n + 1 :=
          Nat.exists_eq_add_one.2 (Nat.add_pos_left c.utf8Size_pos _)
        have hrest : n + 1 - c.utf8Size = byteLength before := by
          rw [← hn, byteLength_cons]
          omega
        have hfits : c.utf8Size ≤ n + 1 := by
          rw [← hn, byteLength_cons]
          omega
        rw [hn, List.cons_append, cutAtByte?, if_pos hfits, hrest, ih]
        rfl

/-- A text is not cut beyond its end and inside a character. -/
theorem cutAtByte?_eq_none {n : Nat} {t : Text} (h : cutAtByte? n t = none) :
    byteLength t < n ∨ CutsCharacter t n := by
  fun_induction cutAtByte? n t with
  | case1 t => cases h
  | case2 n => exact Or.inl (Nat.succ_pos n)
  | case3 n c t hfits ih =>
      have hpos := c.utf8Size_pos
      rcases ih (Option.map_eq_none_iff.1 h)
        with hbeyond | ⟨before, d, after, rfl, hlow, hhigh⟩
      · exact Or.inl (by rw [byteLength_cons]; omega)
      · refine Or.inr ⟨c :: before, d, after, rfl, ?_, ?_⟩
          <;> rw [byteLength_cons] <;> omega
  | case4 n c t hcut =>
      refine Or.inr ⟨[], c, t, rfl, Nat.succ_pos n, ?_⟩
      rw [byteLength_nil]
      omega

/-- Between two characters no character is cut. -/
theorem not_cutsCharacter (before after : Text) :
    ¬CutsCharacter (before ++ after) (byteLength before) := by
  rintro ⟨front, c, back, heq, hlow, hhigh⟩
  rcases List.append_eq_append_iff.1 heq
    with ⟨rest, hfront, -⟩ | ⟨rest, hbefore, hback⟩
  · rw [hfront, byteLength_append] at hlow
    omega
  · cases rest with
    | nil =>
        rw [hbefore, List.append_nil] at hlow
        exact Nat.lt_irrefl _ hlow
    | cons d rest =>
        injection hback with hc
        rw [hbefore, byteLength_append, byteLength_cons, ← hc] at hhigh
        omega

end GridScript.Text
