/-
String literals, as laws of `quote` and of its reader: what is quoted is
read back whatever follows it, and a quoted text has no control character
and hence no line break.

# Why a suffix is carried along

A literal stands inside a line, and the reader stops at the closing quote.
So each law about reading is stated for a text with something behind it. As
long as no quote follows, a literal that is closed is closed at the same
place, and one that is not stays open (`readBody?_append`). This holds for
the two quotes only: a hexadecimal digit that closed a literal could be
taken for the end of an escape once more is written behind it.
-/
import GridScript.Proofs.Text.Lines
import GridScript.Script.Quoted

namespace GridScript.Script

open Text (Unbroken)

-- ======================================================= one character

/-- No character of the text is a control character. -/
def Printable (t : Text) : Prop := ∀ c ∈ t, 0x20 ≤ c.toNat ∧ c.toNat ≠ 0x7F

instance (t : Text) : Decidable (Printable t) :=
  List.decidableBAll (fun c : Char => 0x20 ≤ c.toNat ∧ c.toNat ≠ 0x7F) t

/-- The control characters that have no letter of their own are written as
two hexadecimal digits. -/
theorem hexPair?_hexPadded {n : Nat} (h : n < 0x20 ∨ n = 0x7F) :
    ∃ a b, Number.hexPadded 2 n = [a, b] ∧ hexPair? a b = some (Char.ofNat n)
      ∧ Printable [a, b] := by
  have hlow : ∀ n < 0x20, (Number.hexPadded 2 n).length = 2
      ∧ hexPair? ((Number.hexPadded 2 n).headD ' ')
          ((Number.hexPadded 2 n).getLastD ' ')
          = some (Char.ofNat n)
      ∧ Printable (Number.hexPadded 2 n) := by decide
  have hfound : (Number.hexPadded 2 n).length = 2
      ∧ hexPair? ((Number.hexPadded 2 n).headD ' ')
          ((Number.hexPadded 2 n).getLastD ' ')
          = some (Char.ofNat n)
      ∧ Printable (Number.hexPadded 2 n) := by
    rcases h with h | rfl
    · exact hlow n h
    · decide
  obtain ⟨hlength, hread, hprintable⟩ := hfound
  match hab : Number.hexPadded 2 n, hlength with
  | [a, b], _ =>
      rw [hab] at hread hprintable
      exact ⟨a, b, rfl, hread, hprintable⟩

/-- What an escaped character is read as, in front of anything. -/
theorem readBody?_escape (c : Char) (rest : Text) :
    readBody? '\'' (escape c ++ rest)
      = (readBody? '\'' rest).map (QuotedRest.prepend (escape c) [c]) := by
  unfold escape
  split
  case isTrue h => subst h; rfl
  case isFalse hback =>
  split
  case isTrue h => subst h; rfl
  case isFalse hquote =>
  split
  case isTrue h => subst h; rfl
  case isFalse =>
  split
  case isTrue h => subst h; rfl
  case isFalse =>
  split
  case isTrue h => subst h; rfl
  case isFalse =>
  split
  case isTrue h =>
      obtain ⟨a, b, hab, hpair, -⟩ := hexPair?_hexPadded h
      rw [hab]
      simp only [List.cons_append, List.nil_append]
      rw [readBody?, hpair, Char.ofNat_toNat]
  case isFalse =>
      -- the character stands for itself
      rw [List.singleton_append, readBody?, if_neg hquote, if_neg hback]
      · intro _ _ _ heq
        exact absurd heq hback
      · intro _ _ heq
        exact absurd heq hback

-- ========================================================== round trip

/-- A quoted text is read back, and the reader stops behind it. -/
theorem readBody?_flatMap_escape (t rest : Text) :
    readBody? '\'' (t.flatMap escape ++ '\'' :: rest)
      = some ⟨t.flatMap escape ++ ['\''], t, rest⟩ := by
  induction t with
  | nil =>
      rw [List.flatMap_nil, List.nil_append, readBody?, if_pos rfl]
      · rfl
      · intro _ _ _ heq
        exact absurd heq (by decide)
      · intro _ _ heq
        exact absurd heq (by decide)
  | cons c t ih =>
      rw [List.flatMap_cons, List.append_assoc, readBody?_escape, ih]
      simp only [Option.map_some, QuotedRest.prepend, List.append_assoc,
        List.singleton_append]

/-- The reader of a literal gives the text back and stops behind the closing
quote. -/
theorem readQuoted?_quote (t rest : Text) :
    readQuoted? (quote t ++ rest) = some (t, rest) := by
  have hquote : isQuote '\'' = true := by decide
  unfold quote
  rw [List.cons_append, List.cons_append, List.append_assoc,
    List.singleton_append, readQuoted?, if_pos hquote,
    readBody?_flatMap_escape]
  rfl

-- ==================================================== control characters

theorem printable_cons {c : Char} {t : Text} :
    Printable (c :: t) ↔ (0x20 ≤ c.toNat ∧ c.toNat ≠ 0x7F) ∧ Printable t :=
  List.forall_mem_cons

/-- A control character is spelled in others. -/
theorem printable_escape (c : Char) : Printable (escape c) := by
  unfold escape
  split
  case isTrue => decide
  case isFalse =>
  split
  case isTrue => decide
  case isFalse =>
  split
  case isTrue => decide
  case isFalse =>
  split
  case isTrue => decide
  case isFalse =>
  split
  case isTrue => decide
  case isFalse =>
  split
  case isTrue h =>
      obtain ⟨a, b, hab, -, hprintable⟩ := hexPair?_hexPadded h
      rw [hab, printable_cons, printable_cons]
      exact ⟨by decide, by decide, hprintable⟩
  case isFalse h =>
      intro d hd
      rw [List.mem_singleton.1 hd]
      omega

/-- A literal holds no control character. -/
theorem printable_quote (t : Text) : Printable (quote t) := by
  intro c hc
  unfold quote at hc
  rw [List.cons_append, List.mem_cons, List.mem_append, List.mem_flatMap,
    List.mem_singleton] at hc
  rcases hc with rfl | ⟨d, -, hc⟩ | rfl
  · decide
  · exact printable_escape d c hc
  · decide

theorem Printable.unbroken {t : Text} (h : Printable t) : Unbroken t :=
  ⟨fun hmem => absurd (h _ hmem).1 (by decide),
    fun hmem => absurd (h _ hmem).1 (by decide)⟩

/-- A literal stands on one line. -/
theorem unbroken_quote (t : Text) : Unbroken (quote t) :=
  (printable_quote t).unbroken

-- ==================================================== what stands behind

/-- The escape of two digits, the only one of more than one character. -/
theorem readBody?_hex {q a b : Char} (t : Text) :
    readBody? q ('\\' :: 'x' :: a :: b :: t)
      = match hexPair? a b with
        | some c => (readBody? q t).map (.prepend ['\\', 'x', a, b] [c])
        | none =>
            (readBody? q (a :: b :: t)).map
              (.prepend ['\\', 'x'] ['\\', 'x']) := by
  cases hpair : hexPair? a b with
  | some c => simp only [readBody?, hpair]
  | none => simp only [readBody?, hpair]

/-- Any other escape. -/
theorem readBody?_letter {q e : Char} {t : Text}
    (h : ∀ a b rest, e = 'x' → t ≠ a :: b :: rest) :
    readBody? q ('\\' :: e :: t)
      = match letterEscape? e with
        | some c => (readBody? q t).map (.prepend ['\\', e] [c])
        | none => (readBody? q t).map (.prepend ['\\', e] ['\\', e]) := by
  cases hletter : letterEscape? e with
  | some c => simp only [readBody?, hletter]
  | none => simp only [readBody?, hletter]

/-- Any other character. -/
theorem readBody?_cons {q c : Char} (t : Text) (h : c ≠ '\\') :
    readBody? q (c :: t)
      = if c = q then some ⟨[c], [], t⟩
        else (readBody? q t).map (.prepend [c] [c]) := by
  rw [readBody?, if_neg h]
  · intro _ _ _ heq
    exact absurd heq h
  · intro _ _ heq
    exact absurd heq h

theorem isQuote_iff {q : Char} : isQuote q = true ↔ q = '\'' ∨ q = '"' := by
  unfold isQuote
  rw [Bool.or_eq_true, beq_iff_eq, beq_iff_eq]

theorem hexPair?_of_isQuote {q : Char} (hq : isQuote q = true) (b : Char) :
    hexPair? q b = none := by
  rcases isQuote_iff.1 hq with rfl | rfl <;> rfl

theorem isQuote_ne_backslash {q : Char} (hq : isQuote q = true) :
    q ≠ '\\' := by
  intro h
  rw [h] at hq
  cases hq

/-- A text without the quote closes nothing. -/
theorem readBody?_of_not_mem {q : Char} {t : Text} (h : q ∉ t) :
    readBody? q t = none := by
  fun_induction readBody? q t with
  | case1 => rfl
  | case2 a b t c hc ih =>
      rw [ih (by simp_all)]
      rfl
  | case3 a b t hc ih =>
      rw [ih (by simp_all)]
      rfl
  | case4 e t _ c hc ih =>
      rw [ih (by simp_all)]
      rfl
  | case5 e t _ hc ih =>
      rw [ih (by simp_all)]
      rfl
  | case6 t => exact absurd List.mem_cons_self h
  | case7 => rfl
  | case8 c t _ _ _ _ ih =>
      rw [ih (by simp_all)]
      rfl

/-- What was read with more behind it. -/
def QuotedRest.append (s : Text) (r : QuotedRest) : QuotedRest :=
  { r with rest := r.rest ++ s }

private theorem map_prepend_append (spelled read s : Text)
    (r : Option QuotedRest) :
    (r.map (QuotedRest.append s)).map (QuotedRest.prepend spelled read)
      = (r.map (QuotedRest.prepend spelled read)).map
        (QuotedRest.append s) := by
  cases r <;> rfl

/-- An `x` behind a backslash that is no escape has not two characters
behind it, so that a quote among them is the only one. -/
private theorem eq_quote_of_no_pair {q : Char} {t : Text}
    (h : ∀ (a b : Char) (rest : Text), t ≠ a :: b :: rest) (hmem : q ∈ t) :
    t = [q] := by
  match t with
  | [] => cases hmem
  | [d] => rw [List.mem_singleton.1 hmem]
  | a :: b :: rest => exact absurd rfl (h a b rest)

/-- A literal ends where it did if no quote follows, and one that is not
closed stays open. -/
theorem readBody?_append {q : Char} (hq : isQuote q = true) {s : Text}
    (hs : q ∉ s) (t : Text) :
    readBody? q (t ++ s) = (readBody? q t).map (.append s) := by
  fun_induction readBody? q t with
  | case1 => exact readBody?_of_not_mem hs
  | case2 a b t c hc ih =>
      rw [← map_prepend_append, ← ih]
      simp only [List.cons_append]
      rw [readBody?_hex, hc]
  | case3 a b t hc ih =>
      rw [← map_prepend_append, ← ih]
      simp only [List.cons_append]
      rw [readBody?_hex, hc]
  | case4 e t hshort c hc ih =>
      have hx : e ≠ 'x' := by
        intro hx
        rw [hx] at hc
        cases hc
      rw [← map_prepend_append, ← ih]
      simp only [List.cons_append]
      rw [readBody?_letter (fun _ _ _ hex => absurd hex hx), hc]
  -- an escape that is none, which takes one character
  | case5 e t hshort hc ih =>
      by_cases hlong : ∃ a b rest, e = 'x' ∧ t ++ s = a :: b :: rest
      · -- what follows adds to an `x` that had no two digits behind it
        obtain ⟨a, b, rest, rfl, hts⟩ := hlong
        by_cases hmem : q ∈ t
        · obtain rfl :=
            eq_quote_of_no_pair
              (fun a b rest heq => hshort a b rest rfl heq) hmem
          obtain ⟨rfl, hrest⟩ := List.cons.inj hts
          have hs' : s = b :: rest := hrest
          rw [← map_prepend_append, ← ih, hs']
          simp only [List.cons_append, List.nil_append]
          rw [readBody?_hex, hexPair?_of_isQuote hq]
        · have hquote : q ∉ '\\' :: 'x' :: (t ++ s) := by
            simp only [List.mem_cons, List.mem_append, not_or]
            refine ⟨isQuote_ne_backslash hq, ?_, hmem, hs⟩
            rintro rfl
            cases hq
          -- the text ends with an `x` behind a backslash, so nothing closes it
          rw [readBody?_of_not_mem hmem]
          exact readBody?_of_not_mem hquote
      · rw [← map_prepend_append, ← ih]
        simp only [List.cons_append]
        rw [readBody?_letter
          (fun a b rest hx hts => hlong ⟨a, b, rest, hx, hts⟩), hc]
  | case6 t =>
      rw [List.cons_append, readBody?_cons _ (isQuote_ne_backslash hq),
        if_pos rfl]
      rfl
  | case7 t hfirst hsecond hne =>
      cases t with
      | nil =>
          refine readBody?_of_not_mem ?_
          simp only [List.cons_append, List.nil_append, List.mem_cons, not_or]
          exact ⟨isQuote_ne_backslash hq, hs⟩
      | cons e rest => exact (hsecond e rest rfl rfl).elim
  | case8 c t hfirst hsecond hne hback ih =>
      rw [← map_prepend_append, ← ih, List.cons_append, readBody?_cons _ hback,
        if_neg hne]

end GridScript.Script
