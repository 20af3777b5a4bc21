/-
The spellings of a cell. A name such as `ab12` spells a row and a column:
its letters, in either case, are the numeral of the column, and its digits
make the row, with or without zeros in front. Every name of letters and
digits spells one row and one column, however large (`exists_spells`,
`Spells.unique`), and a reader takes exactly those that fit
(`readLabel?_eq_some_iff`).

A numeral is read letter by letter, and it is the last letter that a
numeral has been put together with last. So the induction is on the text
from its end.
-/
import GridScript.Proofs.Grid.Address
import Mathlib.Data.List.Induction

namespace GridScript

open Text (Solid)

-- ================================================================== case

namespace Text

theorem isAlpha_iff {c : Char} :
    c.isAlpha = true ↔ c.isUpper = true ∨ c.isLower = true := by
  unfold Char.isAlpha
  rw [Bool.or_eq_true]

/-- Only a letter in lower case has another upper case. -/
theorem toUpper_of_not_isLower {c : Char} (h : ¬c.isLower = true) :
    c.toUpper = c := by
  unfold Char.toUpper
  rw [dif_neg]
  exact fun hbounds => h (isLower_iff.2 hbounds)

/-- The upper case of a letter in lower case is a letter. -/
theorem toUpper_of_isLower {c : Char} (h : c.isLower = true) :
    c.toUpper.toNat = c.toNat - 32 ∧ c.toUpper.isUpper = true := by
  have hbounds := isLower_iff.1 h
  have hall : ∀ n < 123, 97 ≤ n → (Char.ofNat n).toUpper.toNat = n - 32
      ∧ (Char.ofNat n).toUpper.isUpper = true := by
    decide
  have hc := hall c.toNat (by omega) hbounds.1
  rw [Char.ofNat_toNat] at hc
  exact hc

/-- A letter stays a letter in upper case, and nothing becomes one. -/
theorem isAlpha_toUpper (c : Char) : c.toUpper.isAlpha = c.isAlpha := by
  by_cases hlower : c.isLower = true
  · rw [isAlpha_iff.2 (Or.inl (toUpper_of_isLower hlower).2),
      isAlpha_iff.2 (Or.inr hlower)]
  · rw [toUpper_of_not_isLower hlower]

/-- The case that a letter had is lost in upper case. -/
theorem toUpper_toLower (c : Char) : c.toLower.toUpper = c.toUpper := by
  by_cases hupper : c.isUpper = true
  · have hbounds := isUpper_iff.1 hupper
    have hall : ∀ n < 91, 65 ≤ n →
        (Char.ofNat n).toLower.toUpper = (Char.ofNat n).toUpper := by
      decide
    have hc := hall c.toNat (by omega) hbounds.1
    rw [Char.ofNat_toNat] at hc
    exact hc
  · congr 1
    unfold Char.toLower
    rw [dif_neg]
    exact fun hbounds => hupper (isUpper_iff.2 hbounds)

theorem upper_lower (t : Text) : upper (lower t) = upper t := by
  unfold upper lower
  rw [List.map_map]
  exact List.map_congr_left fun c _ => toUpper_toLower c

/-- Digits have no case. -/
theorem upper_digits {t : Text} (h : ∀ c ∈ t, c.isDigit = true) :
    upper t = t := by
  unfold upper
  refine (List.map_congr_left fun c hc => ?_).trans (List.map_id t)
  refine toUpper_of_not_isLower fun hlower => ?_
  have hdigit := isDigit_iff.1 (h c hc)
  have hbounds := isLower_iff.1 hlower
  omega

end Text

-- =============================================================== columns

namespace Column

open Number (wordBound asWord? asWord?_eq_some_iff asWord?_of_lt)

/-- A letter of either case is the letter of a digit. -/
theorem letterValue?_eq_some_iff {c : Char} {value : Nat} :
    letterValue? c = some value ↔ ∃ digit < 26, c.toUpper = letter digit
      ∧ value = digit + 1 := by
  unfold letterValue?
  constructor
  · intro h
    split at h
    case isTrue halpha =>
        injection h with h
        have hbounds : 65 ≤ c.toUpper.toNat ∧ c.toUpper.toNat ≤ 90 := by
          rcases Text.isAlpha_iff.1 halpha with hupper | hlower
          · rw [Text.toUpper_of_not_isLower fun hlower => by
              have hupper := Text.isUpper_iff.1 hupper
              have hlower := Text.isLower_iff.1 hlower
              omega]
            exact Text.isUpper_iff.1 hupper
          · exact Text.isUpper_iff.1 (Text.toUpper_of_isLower hlower).2
        refine ⟨c.toUpper.toNat - 65, by omega, ?_, h.symm⟩
        show c.toUpper = Char.ofNat (65 + (c.toUpper.toNat - 65))
        rw [Nat.add_sub_cancel' hbounds.1, Char.ofNat_toNat]
    case isFalse => cases h
  · rintro ⟨digit, hdigit, hupper, rfl⟩
    have halpha : c.isAlpha = true := by
      rw [← Text.isAlpha_toUpper, hupper]
      exact (letter_facts digit hdigit).2.1
    have hvalue : ∀ digit < 26,
        (letter digit).toNat - 'A'.toNat + 1 = digit + 1 := by decide
    rw [if_pos halpha, hupper, hvalue digit hdigit]

/-- A numeral with one letter more. -/
theorem numeral_snoc (n : Nat) {digit : Nat} (hdigit : digit < 26) :
    numeral (n * 26 + digit + 1) = numeral n ++ [letter digit] := by
  have hquotient : (n * 26 + digit + 1 - 1) / 26 = n := by omega
  have hremainder : (n * 26 + digit + 1 - 1) % 26 = digit := by omega
  rw [numeral_of_pos (Nat.succ_pos _), hquotient, hremainder]

theorem numeral_injective {m n : Nat} (h : numeral m = numeral n) : m = n :=
  lower_numeral_injective (congrArg Text.lower h)

/-- Letters of either case are the numeral of a number. -/
theorem exists_numeral {t : Text} (h : ∀ c ∈ t, c.isAlpha = true) :
    ∃ n, Text.upper t = numeral n := by
  induction t using List.reverseRecOn with
  | nil => exact ⟨0, numeral_zero.symm⟩
  | append_singleton t c ih =>
      obtain ⟨n, hn⟩ := ih fun d hd => h d (List.mem_append_left _ hd)
      have hc := h c (List.mem_append_right _ List.mem_cons_self)
      obtain ⟨value, hvalue⟩ : ∃ value, letterValue? c = some value := by
        unfold letterValue?
        rw [if_pos hc]
        exact ⟨_, rfl⟩
      obtain ⟨digit, hdigit, hupper, -⟩ := letterValue?_eq_some_iff.1 hvalue
      refine ⟨n * 26 + digit + 1, ?_⟩
      rw [numeral_snoc n hdigit, ← hn, ← hupper]
      exact List.map_append

/-- One letter more is read if the number still fits. -/
theorem readLetter?_eq_some_iff {n m : Nat} {c : Char} :
    readLetter? n c = some m
      ↔ ∃ digit < 26, c.toUpper = letter digit ∧ m = n * 26 + digit + 1
        ∧ m < wordBound := by
  constructor
  · intro h
    have hlt := readLetter?_lt h
    unfold readLetter? at h
    obtain ⟨value, hvalue, h⟩ := Option.bind_eq_some_iff.1 h
    obtain ⟨shifted, hshifted, h⟩ := Option.bind_eq_some_iff.1 h
    obtain ⟨digit, hdigit, hupper, rfl⟩ := letterValue?_eq_some_iff.1 hvalue
    have hn := (asWord?_eq_some_iff.1 hshifted).1
    have hm := (asWord?_eq_some_iff.1 h).1
    exact ⟨digit, hdigit, hupper, by omega, hlt⟩
  · rintro ⟨digit, hdigit, hupper, rfl, hlt⟩
    have hvalue := letterValue?_eq_some_iff.2 ⟨digit, hdigit, hupper, rfl⟩
    unfold readLetter?
    rw [hvalue, Option.bind_eq_bind, Option.bind_some,
      asWord?_of_lt (by omega), Option.bind_some]
    exact asWord?_of_lt hlt

/-- Letters of either case are read as the number that they are the
numeral of, if it fits. -/
theorem foldlM_readLetter?_eq_some_iff {t : Text} {n : Nat} :
    t.foldlM readLetter? 0 = some n
      ↔ Text.upper t = numeral n ∧ n < wordBound := by
  induction t using List.reverseRecOn generalizing n with
  | nil =>
      constructor
      · intro h
        injection h with h
        subst h
        exact ⟨numeral_zero.symm, by decide⟩
      · rintro ⟨h, -⟩
        rw [numeral_injective (numeral_zero.trans h)]
        rfl
  | append_singleton t c ih =>
      have hupper : Text.upper (t ++ [c]) = Text.upper t ++ [c.toUpper] :=
        List.map_append
      have hstep : (t ++ [c]).foldlM readLetter? 0
          = (t.foldlM readLetter? 0).bind fun m => readLetter? m c := by
        simp only [List.foldlM_append, List.foldlM_cons, List.foldlM_nil,
          bind_pure]
        rfl
      rw [hstep, Option.bind_eq_some_iff, hupper]
      constructor
      · rintro ⟨m, hm, hread⟩
        obtain ⟨digit, hdigit, hc, rfl, hlt⟩ := readLetter?_eq_some_iff.1 hread
        exact ⟨by rw [numeral_snoc m hdigit, (ih.1 hm).1, hc], hlt⟩
      · rintro ⟨hnumeral, hlt⟩
        cases n with
        | zero =>
            rw [numeral_zero] at hnumeral
            cases (List.append_eq_nil_iff.1 hnumeral).2
        | succ n =>
            rw [numeral_of_pos (Nat.succ_pos n)] at hnumeral
            obtain ⟨hhigh, hlow⟩ := List.append_inj' hnumeral rfl
            refine ⟨_, ih.2 ⟨hhigh, by omega⟩, readLetter?_eq_some_iff.2 ?_⟩
            exact ⟨n % 26, Nat.mod_lt _ (by decide),
              List.singleton_inj.1 hlow, by omega, hlt⟩

/-- A column is read from its letters in either case, if the numeral
fits. -/
theorem ofLetters?_eq_some_iff {t : Text} {col : Nat} :
    ofLetters? t = some col
      ↔ Text.upper t = letters col ∧ col + 1 < wordBound := by
  unfold ofLetters? letters
  rw [Option.bind_eq_bind, Option.bind_eq_some_iff]
  constructor
  · rintro ⟨n, hn, h⟩
    split at h
    case isTrue => cases h
    case isFalse hpos =>
        injection h with h
        have hcol : n = col + 1 := by omega
        rw [← hcol]
        exact foldlM_readLetter?_eq_some_iff.1 hn
  · intro h
    exact ⟨col + 1,
      foldlM_readLetter?_eq_some_iff.2 h, by
        rw [if_neg (Nat.succ_ne_zero col)]; rfl⟩

end Column

-- ============================================================== spellings

/-- The name is the letters of the column in either case, and digits that
make the row. -/
def Spells (name : Text) (row col : Nat) : Prop :=
  ∃ digits, Number.isDigits digits = true ∧ Number.ofDigits 0 digits = row
    ∧ Text.upper name = Column.letters col ++ digits

/-- Letters and digits in upper case. -/
theorem upper_name (name : Text)
    (h : ∀ c ∈ name.dropWhile Char.isAlpha, c.isDigit = true) :
    Text.upper name
      = Text.upper (name.takeWhile Char.isAlpha)
        ++ name.dropWhile Char.isAlpha := by
  calc Text.upper name
      = Text.upper
        (name.takeWhile Char.isAlpha ++ name.dropWhile Char.isAlpha) := by
        rw [List.takeWhile_append_dropWhile]
    _ = Text.upper (name.takeWhile Char.isAlpha)
      ++ Text.upper (name.dropWhile Char.isAlpha) :=
        List.map_append
    _ = Text.upper (name.takeWhile Char.isAlpha)
      ++ name.dropWhile Char.isAlpha := by
        rw [Text.upper_digits h]

namespace Spells

variable {name : Text} {row col : Nat}

/-- A name is cut where its letters end. -/
theorem iff_cut :
    Spells name row col
      ↔ Text.upper (name.takeWhile Char.isAlpha) = Column.letters col
        ∧ Number.isDigits (name.dropWhile Char.isAlpha) = true
        ∧ Number.ofDigits 0 (name.dropWhile Char.isAlpha) = row := by
  constructor
  · rintro ⟨digits, hdigits, hrow, hname⟩
    have hd := (Number.isDigits_iff.1 hdigits).2
    have hletters : ∀ c ∈ Column.letters col, c.isAlpha = true := fun c hc =>
      (Column.isAlpha_of_mem_letters hc).1
    have hends : ∀ c ∈ digits.head?, c.isAlpha = false := fun c hc =>
      Text.isAlpha_of_isDigit (hd c (List.mem_of_mem_head? hc))
    have htake := Text.takeWhile_run hletters hends
    have hdrop := Text.dropWhile_run hletters hends
    -- upper case moves no letter, so the name is cut where its upper case is
    have halpha : Char.isAlpha ∘ Char.toUpper = Char.isAlpha :=
      funext Text.isAlpha_toUpper
    rw [← hname] at htake hdrop
    unfold Text.upper at htake hdrop
    rw [List.takeWhile_map, halpha] at htake
    rw [List.dropWhile_map, halpha] at hdrop
    have hsame : name.dropWhile Char.isAlpha = digits := by
      rw [← hdrop]
      refine ((List.map_congr_left fun c hc => ?_).trans (List.map_id _)).symm
      refine Text.toUpper_of_not_isLower fun hlower => ?_
      have hmem : c.toUpper ∈ digits := by
        rw [← hdrop]
        exact List.mem_map_of_mem hc
      have hdigit := Text.isDigit_iff.1 (hd _ hmem)
      have hupper := Text.isUpper_iff.1 (Text.toUpper_of_isLower hlower).2
      omega
    rw [hsame]
    exact ⟨htake, hdigits, hrow⟩
  · rintro ⟨hletters, hdigits, hrow⟩
    refine ⟨_, hdigits, hrow, ?_⟩
    rw [upper_name name (Number.isDigits_iff.1 hdigits).2, hletters]

/-- A name spells one row and one column. -/
theorem unique {row' col' : Nat} (h : Spells name row col)
    (h' : Spells name row' col') :
    row = row' ∧ col = col' := by
  obtain ⟨hletters, -, hrow⟩ := iff_cut.1 h
  obtain ⟨hletters', -, hrow'⟩ := iff_cut.1 h'
  have hcol := Column.numeral_injective (hletters.symm.trans hletters')
  omega

/-- The case of the letters does not matter. -/
theorem lower_iff :
    Spells (Text.lower name) row col ↔ Spells name row col := by
  unfold Spells
  rw [Text.upper_lower]

theorem isCellName (h : Spells name row col) : isCellName name = true := by
  obtain ⟨hletters, hdigits, -⟩ := iff_cut.1 h
  have hne : name.takeWhile Char.isAlpha ≠ [] := by
    intro hnil
    rw [hnil] at hletters
    exact Column.letters_ne_nil col hletters.symm
  unfold GridScript.isCellName
  simp [hne, hdigits]

end Spells

/-- Every name of letters and digits spells a row and a column. -/
theorem exists_spells {name : Text} (h : isCellName name = true) :
    ∃ row col, Spells name row col := by
  unfold isCellName at h
  rw [Bool.and_eq_true, Bool.not_eq_true', List.isEmpty_eq_false_iff] at h
  obtain ⟨hne, hdigits⟩ := h
  obtain ⟨n, hn⟩ :=
    Column.exists_numeral fun c (hc : c ∈ name.takeWhile Char.isAlpha) =>
    List.all_eq_true.1 List.all_takeWhile c hc
  have hpos : n ≠ 0 := by
    rintro rfl
    rw [Column.numeral_zero] at hn
    exact hne (List.map_eq_nil_iff.1 hn)
  refine ⟨_, n - 1, Spells.iff_cut.2 ⟨?_, hdigits, rfl⟩⟩
  unfold Column.letters
  rw [Nat.sub_add_cancel (Nat.pos_of_ne_zero hpos), hn]

/-- A name of a cell holds letters and digits only. -/
theorem isAlphanum_of_isCellName {name : Text} (h : isCellName name = true) :
    ∀ c ∈ name, c.isAlphanum = true := by
  unfold isCellName at h
  rw [Bool.and_eq_true] at h
  intro c hc
  rw [← List.takeWhile_append_dropWhile (p := Char.isAlpha) (l := name)] at hc
  unfold Char.isAlphanum
  rw [Bool.or_eq_true]
  rcases List.mem_append.1 hc with hc | hc
  · exact Or.inl (List.all_eq_true.1 List.all_takeWhile c hc)
  · exact Or.inr ((Number.isDigits_iff.1 h.2).2 c hc)

/-- No mark occurs in the name of a cell. -/
theorem not_mem_of_isCellName {name : Text} (h : isCellName name = true)
    {c : Char} (hc : c.isAlphanum = false) : c ∉ name := by
  intro hmem
  rw [isAlphanum_of_isCellName h c hmem] at hc
  cases hc

-- =============================================================== readers

theorem trim_of_solid {t : Text} (h : Solid t) : Text.trim t = t := by
  by_cases hne : t = []
  · rw [hne]
    rfl
  · exact (h.framed hne).trim

/-- A text with no blank and no mark in it is read as what it spells, if
that fits. -/
theorem readLabel?_eq_some_iff {t : Text} (hsolid : Solid t) (hmark : '$' ∉ t)
    {row col : Nat} :
    readLabel? t = some (row, col) ↔ Spells t row col ∧ Fits row col := by
  have hunmarked : ∀ s, (∀ c ∈ s, c ∈ t) → dropMark s = s := by
    intro s hs
    cases s with
    | nil => rfl
    | cons c s =>
        refine dropMark_cons ?_ s
        rintro rfl
        exact hmark (hs _ List.mem_cons_self)
  have hdigits : dropMark (t.dropWhile Char.isAlpha)
      = t.dropWhile Char.isAlpha :=
    hunmarked _ fun c hc => (List.dropWhile_sublist _).subset hc
  unfold readLabel? cutLabel?
  rw [trim_of_solid hsolid, hunmarked t fun _ hc => hc, hdigits,
    Spells.iff_cut, Fits]
  simp only [Option.bind_eq_bind]
  constructor
  · intro h
    obtain ⟨⟨letters, digits⟩, hcut, h⟩ := Option.bind_eq_some_iff.1 h
    obtain ⟨col', hcol, h⟩ := Option.bind_eq_some_iff.1 h
    obtain ⟨row', hrow, h⟩ := Option.bind_eq_some_iff.1 h
    cases h
    split at hcut
    case isTrue => cases hcut
    case isFalse =>
        cases hcut
        unfold Number.wordOfDigits? at hrow
        split at hrow
        case isTrue hisDigits =>
            obtain ⟨hvalue, hlt⟩ := Number.asWord?_eq_some_iff.1 hrow
            obtain ⟨hletters, hbound⟩ := Column.ofLetters?_eq_some_iff.1 hcol
            exact ⟨⟨hletters, hisDigits, hvalue⟩, hvalue ▸ hlt, hbound⟩
        case isFalse => cases hrow
  · rintro ⟨⟨hletters, hisDigits, hvalue⟩, hlt, hbound⟩
    have hne : t.takeWhile Char.isAlpha ≠ [] := by
      intro hnil
      rw [hnil] at hletters
      exact Column.letters_ne_nil col hletters.symm
    have hcol := Column.ofLetters?_eq_some_iff.2 ⟨hletters, hbound⟩
    have hrow : Number.wordOfDigits? (t.dropWhile Char.isAlpha)
        = some row := by
      unfold Number.wordOfDigits?
      rw [if_pos hisDigits, hvalue, Number.asWord?_of_lt hlt]
    rw [if_neg (by simp [hne, hisDigits]), Option.bind_some]
    simp only [hcol, hrow, Option.bind_some]
    rfl

/-- Without brackets the body is meant. -/
theorem cutRegion_of_solid {t : Text} (hsolid : Solid t) (hbracket : '[' ∉ t) :
    cutRegion t = .ok (.body, t) := by
  unfold cutRegion
  simp only [trim_of_solid hsolid, Text.cutAtFirst?_of_not_mem hbracket]

/-- A text is read as the cell of the body that it spells. -/
theorem Cell.toOption_parse {t : Text} (hsolid : Solid t)
    (hbracket : '[' ∉ t) :
    (Cell.parse t).toOption
      = (readLabel? t).map fun at_ => ⟨.body, at_.1, at_.2⟩ := by
  unfold Cell.parse
  rw [cutRegion_of_solid hsolid hbracket]
  cases h : readLabel? t with
  | none => simp [bind, Except.bind, h, orInvalid, Except.toOption]
  | some at_ =>
      simp [bind, Except.bind, h, orInvalid, Except.toOption, pure,
        Except.pure]

/-- Two texts with a colon between are read as the range of the body with
the corners that they spell. -/
theorem CellRange.toOption_parse {a b : Text} (hsolid : Solid (a ++ ':' :: b))
    (hbracket : '[' ∉ a ++ ':' :: b) (hcolon : ':' ∉ a) :
    (CellRange.parse (a ++ ':' :: b)).toOption
      = (readLabel? a).bind fun p => (readLabel? b).map fun q =>
        .ofCorners .body p q := by
  unfold CellRange.parse
  rw [cutRegion_of_solid hsolid hbracket]
  simp only [bind, Except.bind, Text.cutAtFirst?_append hcolon]
  cases readLabel? a with
  | none => rfl
  | some p =>
      cases readLabel? b with
      | none => rfl
      | some q => rfl

end GridScript
