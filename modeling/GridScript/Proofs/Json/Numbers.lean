/-
Reading a number. The reader takes digits as far as they go, a point with
more of them and an exponent, each if it is there; so whether a number ends
where it should is told from the one character behind it
(`readNumber?_append`).
-/
import GridScript.Json.Reader

namespace GridScript.Json

/-- Would a number that stands in front of the text go on in it? -/
def continuesNumber : Text → Bool
  | [] => false
  | c :: _ => c.isDigit || c == '.' || c == 'e' || c == 'E'

/-- Does the text begin with no digit? -/
def stopsDigits (t : Text) : Bool := t.head?.all fun c => !c.isDigit

section Numbers

variable {t u rest part spelling : Text}

theorem stopsDigits_append (hrest : continuesNumber rest = false)
    (h : stopsDigits u = true) :
    stopsDigits (u ++ rest) = true := by
  cases u with
  | cons c u => exact h
  | nil =>
      cases rest with
      | nil => rfl
      | cons c rest =>
          simp only [continuesNumber, Bool.or_eq_false_iff] at hrest
          simp [stopsDigits, hrest.1.1.1]

/-- Digits are read up to the first character that is none. -/
theorem readDigits?_digits (hne : part ≠ [])
    (hdigits : ∀ c ∈ part, c.isDigit = true) (hstop : stopsDigits u = true) :
    readDigits? (part ++ u) = some (part, u) := by
  have hrest : u.takeWhile Char.isDigit = []
      ∧ u.dropWhile Char.isDigit = u := by
    cases u with
    | nil => exact ⟨rfl, rfl⟩
    | cons c u =>
        have hc : ¬c.isDigit = true := by simpa [stopsDigits] using hstop
        exact ⟨List.takeWhile_cons_of_neg hc, List.dropWhile_cons_of_neg hc⟩
  unfold readDigits?
  rw [List.takeWhile_append_of_pos hdigits,
    List.dropWhile_append_of_pos hdigits, hrest.1, hrest.2, List.append_nil]
  simp [hne]

theorem readDigits?_eq_some (h : readDigits? t = some (part, u)) :
    t = part ++ u ∧ part ≠ [] ∧ (∀ c ∈ part, c.isDigit = true)
      ∧ stopsDigits u = true := by
  unfold readDigits? at h
  simp only at h
  split at h
  case isTrue => cases h
  case isFalse hsome =>
      injection h with h
      injection h with hpart hu
      subst hpart hu
      refine ⟨List.takeWhile_append_dropWhile.symm, by simpa using hsome,
        ?_, ?_⟩
      · exact List.all_eq_true.1 List.all_takeWhile
      · cases hdrop : t.dropWhile Char.isDigit with
        | nil => rfl
        | cons c rest =>
            have hhead := List.head?_dropWhile_not Char.isDigit t
            rw [hdrop] at hhead
            simpa [stopsDigits] using hhead

theorem readDigits?_append (hrest : continuesNumber rest = false)
    (h : readDigits? t = some (part, u)) :
    readDigits? (t ++ rest) = some (part, u ++ rest) := by
  obtain ⟨rfl, hne, hdigits, hstop⟩ := readDigits?_eq_some h
  rw [List.append_assoc]
  exact readDigits?_digits hne hdigits (stopsDigits_append hrest hstop)

theorem readWhole?_append (hrest : continuesNumber rest = false)
    (h : readWhole? t = some (part, u)) :
    readWhole? (t ++ rest) = some (part, u ++ rest) := by
  unfold readWhole? at h ⊢
  obtain ⟨⟨digits, v⟩, hdigits, h⟩ := Option.bind_eq_some_iff.1 h
  rw [readDigits?_append hrest hdigits, Option.bind_eq_bind, Option.bind_some]
  simp only at h ⊢
  split at h
  case isTrue => cases h
  case isFalse hzero =>
      rw [if_neg hzero]
      injection h with h
      injection h with hdigits hv
      rw [hdigits, hv]
      rfl

theorem readFraction?_append (hrest : continuesNumber rest = false)
    (h : readFraction? t = some (part, u)) :
    readFraction? (t ++ rest) = some (part, u ++ rest) := by
  have hnone : ∀ s : Text, s.head? ≠ some '.' →
      readFraction? s = some ([], s) := by
    intro s hs
    unfold readFraction?
    split
    next => exact absurd rfl hs
    next => rfl
  cases t with
  | nil =>
      cases h
      refine hnone rest ?_
      cases rest with
      | nil => exact nofun
      | cons c rest =>
          simp only [continuesNumber, Bool.or_eq_false_iff] at hrest
          simpa using hrest.1.1.2
  | cons c t =>
      by_cases hc : c = '.'
      · subst hc
        obtain ⟨⟨digits, v⟩, hdigits, heq⟩ := Option.map_eq_some_iff.1 h
        injection heq with hpart hv
        subst hpart hv
        show (readDigits? (t ++ rest)).map _ = _
        rw [readDigits?_append hrest hdigits]
        rfl
      · rw [hnone (c :: t) (by simpa using hc)] at h
        cases h
        exact hnone _ (by simpa using hc)

theorem readExponent?_none (h : ∀ c ∈ t.head?, c ≠ 'e' ∧ c ≠ 'E') :
    readExponent? t = some ([], t) := by
  cases t with
  | nil => rfl
  | cons c t =>
      obtain ⟨hsmall, hlarge⟩ := h c rfl
      simp only [readExponent?, hsmall, hlarge, or_self, if_false]

theorem readExponent?_mark {e s : Char} (he : e = 'e' ∨ e = 'E') (t : Text) :
    readExponent? (e :: s :: t)
      = if s = '+' ∨ s = '-' then (readDigits? t).map fun (digits, u) =>
        (e :: s :: digits, u)
        else
          (readDigits? (s :: t)).map fun (digits, u) => (e :: digits, u) := by
  simp only [readExponent?, he, if_true]

theorem readExponent?_append (hrest : continuesNumber rest = false)
    (h : readExponent? t = some (part, u)) :
    readExponent? (t ++ rest) = some (part, u ++ rest) := by
  cases t with
  | nil =>
      cases h
      refine readExponent?_none fun c hc => ?_
      cases rest with
      | nil => cases hc
      | cons d rest =>
          obtain rfl : d = c := Option.some.inj hc
          simp only [continuesNumber, Bool.or_eq_false_iff,
            beq_eq_false_iff_ne] at hrest
          exact ⟨hrest.1.2, hrest.2⟩
  | cons e t =>
      by_cases he : e = 'e' ∨ e = 'E'
      · cases t with
        | nil => simp only [readExponent?, he, if_true] at h; cases h
        | cons s t =>
            rw [readExponent?_mark he] at h
            rw [List.cons_append, List.cons_append, readExponent?_mark he]
            by_cases hs : s = '+' ∨ s = '-'
            · rw [if_pos hs] at h ⊢
              obtain ⟨⟨digits, v⟩, hdigits, heq⟩ := Option.map_eq_some_iff.1 h
              cases heq
              rw [readDigits?_append hrest hdigits]
              rfl
            · rw [if_neg hs] at h ⊢
              obtain ⟨⟨digits, v⟩, hdigits, heq⟩ := Option.map_eq_some_iff.1 h
              cases heq
              rw [← List.cons_append, readDigits?_append hrest hdigits]
              rfl
      -- without a mark there is no exponent, with `rest` and without
      · have hmark : ∀ s : Text, ∀ c ∈ (e :: s).head?, c ≠ 'e' ∧ c ≠ 'E' := by
          rintro s c hc
          obtain rfl : e = c := Option.some.inj hc
          exact not_or.1 he
        rw [readExponent?_none (hmark t)] at h
        cases h
        exact readExponent?_none (hmark (t ++ rest))

theorem readUnsigned?_append (hrest : continuesNumber rest = false)
    (h : readUnsigned? t = some (part, u)) :
    readUnsigned? (t ++ rest) = some (part, u ++ rest) := by
  unfold readUnsigned? at h ⊢
  obtain ⟨⟨whole, t₁⟩, hwhole, h⟩ := Option.bind_eq_some_iff.1 h
  obtain ⟨⟨fraction, t₂⟩, hfraction, h⟩ := Option.bind_eq_some_iff.1 h
  obtain ⟨⟨exponent, t₃⟩, hexponent, h⟩ := Option.bind_eq_some_iff.1 h
  cases h
  rw [readWhole?_append hrest hwhole, Option.bind_eq_bind, Option.bind_some]
  simp only
  rw [readFraction?_append hrest hfraction, Option.bind_some]
  simp only
  rw [readExponent?_append hrest hexponent]
  rfl

/-- A number ends where nothing continues it. -/
theorem readNumber?_append (hrest : continuesNumber rest = false)
    (h : readNumber? t = some (part, u)) :
    readNumber? (t ++ rest) = some (part, u ++ rest) := by
  cases t with
  | nil => cases h
  | cons c t =>
      by_cases hc : c = '-'
      · subst hc
        obtain ⟨⟨spelling, v⟩, hspelling, heq⟩ := Option.map_eq_some_iff.1 h
        cases heq
        show (readUnsigned? (t ++ rest)).map _ = _
        rw [readUnsigned?_append hrest hspelling]
        rfl
      · have hsign : ∀ s, readNumber? (c :: s) = readUnsigned? (c :: s) := by
          intro s
          unfold readNumber?
          split
          next heq =>
              injection heq with heq
              exact absurd heq hc
          next => rfl
        rw [hsign] at h
        rw [List.cons_append, hsign, ← List.cons_append]
        exact readUnsigned?_append hrest h

/-- A number begins with a sign or a digit. -/
theorem exists_head_of_readNumber? (h : readNumber? t = some (part, u)) :
    ∃ c s, t = c :: s ∧ (c = '-' ∨ c.isDigit = true) := by
  cases t with
  | nil => cases h
  | cons c s =>
      refine ⟨c, s, rfl, ?_⟩
      by_cases hc : c = '-'
      · exact Or.inl hc
      · right
        unfold readNumber? at h
        split at h
        next heq =>
            injection heq with heq
            exact absurd heq hc
        next =>
            unfold readUnsigned? readWhole? at h
            obtain ⟨whole, hwhole, -⟩ := Option.bind_eq_some_iff.1 h
            obtain ⟨⟨digits, v⟩, hdigits, -⟩ :=
              Option.bind_eq_some_iff.1 hwhole
            obtain ⟨heq, hne, hall, -⟩ := readDigits?_eq_some hdigits
            obtain ⟨d, digits, rfl⟩ := List.exists_cons_of_ne_nil hne
            injection heq with hd _
            exact hall c (hd ▸ List.mem_cons_self)

end Numbers

end GridScript.Json
