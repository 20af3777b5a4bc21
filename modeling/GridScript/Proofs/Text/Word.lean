/-
Words, and the characters that they are made of. All of these are letters,
digits and the underscore of ASCII, so a word holds no blank, no quote and
no line break. `IsWord` says that a text is one word from end to end; such
a text is read as one token wherever no word character follows it.
-/
import GridScript.Proofs.Text.Cuts
import GridScript.Proofs.Text.Lines
import GridScript.Proofs.Text.Trim
import GridScript.Text.Word

namespace GridScript.Text

-- ====================================================== word characters

theorem isUpper_iff {c : Char} :
    c.isUpper = true ↔ 65 ≤ c.toNat ∧ c.toNat ≤ 90 := by
  show decide (65 ≤ c.toNat ∧ c.toNat ≤ 90) = true ↔ _
  rw [decide_eq_true_iff]

theorem isLower_iff {c : Char} :
    c.isLower = true ↔ 97 ≤ c.toNat ∧ c.toNat ≤ 122 := by
  show (decide (97 ≤ c.toNat) && decide (c.toNat ≤ 122)) = true ↔ _
  rw [Bool.and_eq_true, decide_eq_true_iff, decide_eq_true_iff]

theorem isDigit_iff {c : Char} :
    c.isDigit = true ↔ 48 ≤ c.toNat ∧ c.toNat ≤ 57 := by
  show (decide (48 ≤ c.toNat) && decide (c.toNat ≤ 57)) = true ↔ _
  rw [Bool.and_eq_true, decide_eq_true_iff, decide_eq_true_iff]

theorem isAlpha_of_isDigit {c : Char} (h : c.isDigit = true) :
    c.isAlpha = false := by
  rw [Bool.eq_false_iff]
  intro halpha
  unfold Char.isAlpha at halpha
  rw [Bool.or_eq_true, isUpper_iff, isLower_iff] at halpha
  rw [isDigit_iff] at h
  omega

/-- The characters of words by their numbers. -/
theorem toNat_of_isWordChar {c : Char} (h : isWordChar c = true) :
    (48 ≤ c.toNat ∧ c.toNat ≤ 57) ∨ (65 ≤ c.toNat ∧ c.toNat ≤ 90)
      ∨ c.toNat = 95
      ∨ (97 ≤ c.toNat ∧ c.toNat ≤ 122) := by
  have hcases : (((c.isUpper || c.isLower) || c.isDigit) || c == '_') = true :=
    h
  simp only [Bool.or_eq_true, beq_iff_eq, isUpper_iff, isLower_iff,
    isDigit_iff] at hcases
  rcases hcases with ((hupper | hlower) | hdigit) | rfl
  · exact Or.inr (Or.inl hupper)
  · exact Or.inr (Or.inr (Or.inr hlower))
  · exact Or.inl hdigit
  · exact Or.inr (Or.inr (Or.inl rfl))

/-- A blank is no part of a word. -/
theorem isWordChar_of_isBlank {c : Char} (h : isBlank c = true) :
    isWordChar c = false := by
  unfold isBlank blankRanges at h
  rw [List.any_eq_true] at h
  obtain ⟨range, hrange, hin⟩ := h
  simp only [Bool.and_eq_true, decide_eq_true_eq] at hin
  rw [Bool.eq_false_iff]
  intro hword
  have hbounds := toNat_of_isWordChar hword
  simp only [List.mem_cons, List.not_mem_nil, or_false] at hrange
  rcases hrange with rfl | rfl | rfl | rfl | rfl | rfl | rfl | rfl | rfl | rfl
    <;>
    (simp only at hin; omega)

theorem isBlank_of_isWordChar {c : Char} (h : isWordChar c = true) :
    isBlank c = false := by
  cases hb : isBlank c with
  | false => rfl
  | true =>
      rw [isWordChar_of_isBlank hb] at h
      cases h

theorem isWordChar_of_isWordStart {c : Char} (h : isWordStart c = true) :
    isWordChar c = true := by
  unfold isWordStart at h
  unfold isWordChar Char.isAlphanum
  simp only [Bool.or_eq_true] at h ⊢
  rcases h with h | h
  · exact Or.inl (Or.inl h)
  · exact Or.inr h

-- ================================================================ words

/-- Is the text one word? -/
def IsWord : Text → Prop
  | [] => False
  | c :: t => isWordStart c = true ∧ ∀ d ∈ t, isWordChar d = true

/-- Whether a text is a word, computed. -/
def isWord : Text → Bool
  | [] => false
  | c :: t => isWordStart c && t.all isWordChar

theorem isWord_iff {w : Text} : isWord w = true ↔ IsWord w := by
  cases w with
  | nil => simp [isWord, IsWord]
  | cons c t => simp [isWord, IsWord]

instance : DecidablePred IsWord := fun _ => decidable_of_iff _ isWord_iff

namespace IsWord

theorem ne_nil {w : Text} (h : IsWord w) : w ≠ [] := by
  rintro rfl
  exact h

theorem isWordChar {w : Text} (h : IsWord w) :
    ∀ c ∈ w, Text.isWordChar c = true := by
  match w, h with
  | c :: t, h =>
      intro d hd
      rcases List.mem_cons.1 hd with rfl | hd
      · exact isWordChar_of_isWordStart h.1
      · exact h.2 d hd

theorem unbroken {w : Text} (h : IsWord w) : Unbroken w :=
  unbroken_of_forall h.isWordChar (by decide) (by decide)

theorem isBlank {w : Text} (h : IsWord w) : ∀ c ∈ w, Text.isBlank c = false :=
  fun c hc => isBlank_of_isWordChar (h.isWordChar c hc)

/-- A word goes on with word characters. -/
theorem append {w : Text} (h : IsWord w) {s : Text}
    (hs : ∀ c ∈ s, Text.isWordChar c = true) :
    IsWord (w ++ s) := by
  match w, h with
  | c :: t, h =>
      refine ⟨h.1, ?_⟩
      intro d hd
      rcases List.mem_append.1 hd with hd | hd
      · exact h.2 d hd
      · exact hs d hd

end IsWord

/-- Does no word character come next? -/
def EndsWord (t : Text) : Prop := ∀ c ∈ t.head?, isWordChar c = false

theorem endsWord_cons {c : Char} {t : Text} (h : isWordChar c = false) :
    EndsWord (c :: t) := by
  intro d hd
  injection hd with hd
  rw [← hd]
  exact h

theorem EndsWord.append {a b : Text} (ha : EndsWord a) (hb : EndsWord b) :
    EndsWord (a ++ b) := by
  cases a with
  | nil => exact hb
  | cons c a => exact endsWord_cons (ha c rfl)

theorem endsWord_afterWord (t : Text) : EndsWord (afterWord t) :=
  head?_dropWhile isWordChar t

theorem endsWord_of_allBlank {s : Text} (h : allBlank s = true) :
    EndsWord s := by
  intro c hc
  exact isWordChar_of_isBlank (allBlank_iff.1 h c (List.mem_of_mem_head? hc))

theorem word_append_afterWord (t : Text) : word t ++ afterWord t = t :=
  List.takeWhile_append_dropWhile

theorem word_append {w rest : Text} (hw : ∀ c ∈ w, isWordChar c = true)
    (hrest : EndsWord rest) :
    word (w ++ rest) = w := takeWhile_run hw hrest

theorem afterWord_append {w rest : Text} (hw : ∀ c ∈ w, isWordChar c = true)
    (hrest : EndsWord rest) : afterWord (w ++ rest) = rest :=
  dropWhile_run hw hrest

theorem isWordChar_of_mem_word {t : Text} {c : Char} (h : c ∈ word t) :
    isWordChar c = true := by
  unfold word at h
  exact List.all_eq_true.1 List.all_takeWhile c h

end GridScript.Text
