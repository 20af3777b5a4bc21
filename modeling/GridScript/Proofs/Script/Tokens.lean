/-
The tokens of a line that is put together from parts, and of a line that
is taken apart.

# Forwards

A word, a literal and any other character are each one token in front of
what follows (`tokens_word`, `tokens_quote`, `tokens_mark`), so the tokens
of a line that the library writes can be worked out from its parts.

# Backwards

What a reader leaves over is a list of tokens, and what is kept of it is
their text. `Reads` says that this text has these tokens. It holds of the
tokens of a line and of what is left of them after any token but a quote
that is never closed (`Reads.tail`): behind such a quote every character
stands by itself, and a word would be made of them once more.

Blanks at the end of a line are tokens by themselves
(`tokens_append_blank`), so trimming a line drops them and changes nothing
else.
-/
import GridScript.Proofs.Script.Quoted
import GridScript.Proofs.Text.Word
import GridScript.Script.Token

namespace GridScript.Script

open Text (IsWord EndsWord isBlank allBlank isWordChar isWordStart)

-- ============================================================ characters

theorem isQuote_of_isWordChar {c : Char} (h : isWordChar c = true) :
    isQuote c = false := by
  cases hq : isQuote c with
  | false => rfl
  | true => rcases isQuote_iff.1 hq with rfl | rfl <;> cases h

theorem isQuote_of_isBlank {c : Char} (h : isBlank c = true) :
    isQuote c = false := by
  cases hq : isQuote c with
  | false => rfl
  | true => rcases isQuote_iff.1 hq with rfl | rfl <;> cases h

theorem isWordStart_of_isBlank {c : Char} (h : isBlank c = true) :
    isWordStart c = false := by
  cases hw : isWordStart c with
  | false => rfl
  | true =>
      have hword := Text.isWordChar_of_isWordStart hw
      rw [Text.isWordChar_of_isBlank h] at hword
      cases hword

theorem not_mem_of_allBlank {q : Char} (hq : isQuote q = true) {s : Text}
    (h : allBlank s = true) : q ∉ s := by
  intro hmem
  have hblank := Text.allBlank_iff.1 h q hmem
  rw [isQuote_of_isBlank hblank] at hq
  cases hq

-- ============================================================== forwards

@[simp] theorem tokens_nil : tokens [] = [] := by
  rw [tokens]

/-- A literal that is closed is one token. -/
theorem tokens_closed {c : Char} {t : Text} {r : QuotedRest}
    (hq : isQuote c = true) (h : readBody? c t = some r) :
    tokens (c :: t) = .quoted (c :: r.spelling) r.text :: tokens r.rest := by
  rw [tokens, if_pos hq]
  split
  next r' hr' =>
      rw [h] at hr'
      injection hr' with hr'
      rw [hr']
  next hr' =>
      rw [h] at hr'
      cases hr'

/-- Behind a quote that is never closed every character is a token. -/
theorem tokens_open {c : Char} {t : Text} (hq : isQuote c = true)
    (h : readBody? c t = none) :
    tokens (c :: t) = (c :: t).map .mark := by
  rw [tokens, if_pos hq]
  split
  next r' hr' =>
      rw [h] at hr'
      cases hr'
  next => rfl

/-- A word is one token, as far as it goes. -/
theorem tokens_wordStart {c : Char} (hw : isWordStart c = true) (t : Text) :
    tokens (c :: t)
      = .word (c :: Text.word t) :: tokens (Text.afterWord t) := by
  have hq := isQuote_of_isWordChar (Text.isWordChar_of_isWordStart hw)
  rw [tokens, if_neg (by rw [hq]; decide), if_pos hw]

/-- A character that begins neither a word nor a literal is one token. -/
theorem tokens_mark {c : Char} (hq : isQuote c = false)
    (hw : isWordStart c = false) (rest : Text) :
    tokens (c :: rest) = .mark c :: tokens rest := by
  rw [tokens, if_neg (by rw [hq]; decide), if_neg (by rw [hw]; decide)]

/-- A word that ends where it ends is one token. -/
theorem tokens_word {w rest : Text} (hw : IsWord w) (hrest : EndsWord rest) :
    tokens (w ++ rest) = .word w :: tokens rest := by
  match w, hw with
  | c :: t, hw =>
      rw [List.cons_append, tokens_wordStart hw.1, Text.word_append hw.2 hrest,
        Text.afterWord_append hw.2 hrest]

/-- Neither a quote nor a character of a word. -/
def isPunctuation (c : Char) : Bool := !isQuote c && !isWordChar c

theorem tokens_punctuation {c : Char} (h : isPunctuation c = true)
    (rest : Text) :
    tokens (c :: rest) = .mark c :: tokens rest := by
  unfold isPunctuation at h
  rw [Bool.and_eq_true, Bool.not_eq_true', Bool.not_eq_true'] at h
  refine tokens_mark h.1 ?_ rest
  cases hw : isWordStart c with
  | false => rfl
  | true =>
      exact absurd (Text.isWordChar_of_isWordStart hw) (by rw [h.2]; decide)

/-- A word and the punctuation behind it. -/
theorem tokens_wordPunctuation {w : Text} (hw : IsWord w) {c : Char}
    (hc : isPunctuation c = true) (rest : Text) :
    tokens (w ++ c :: rest) = .word w :: .mark c :: tokens rest := by
  have hends : isWordChar c = false := by
    unfold isPunctuation at hc
    rw [Bool.and_eq_true, Bool.not_eq_true', Bool.not_eq_true'] at hc
    exact hc.2
  rw [tokens_word hw (Text.endsWord_cons hends), tokens_punctuation hc]

/-- A quoted text is one token, whatever follows it. -/
theorem tokens_quote (t rest : Text) :
    tokens (quote t ++ rest) = .quoted (quote t) t :: tokens rest := by
  unfold quote
  rw [List.cons_append, List.cons_append, List.append_assoc,
    List.singleton_append,
    tokens_closed (by decide) (readBody?_flatMap_escape t rest)]

/-- Whatever text is quoted and whatever follows the literal: the reader of
literals gives the text back and stops where the rest begins, a line is cut
at the same place, and no control character is in between. -/
theorem quote_read_back (t rest : Text) :
    readQuoted? (quote t ++ rest) = some (t, rest)
      ∧ tokens (quote t ++ rest) = .quoted (quote t) t :: tokens rest
      ∧ ∀ c ∈ quote t, 0x20 ≤ c.toNat ∧ c.toNat ≠ 0x7F :=
  ⟨readQuoted?_quote t rest, tokens_quote t rest, printable_quote t⟩

-- ======================================================= blanks at the end

theorem tokens_blank {s : Text} (h : allBlank s = true) :
    tokens s = s.map .mark := by
  induction s with
  | nil => exact tokens_nil
  | cons c s ih =>
      rw [Text.allBlank_cons, Bool.and_eq_true] at h
      rw [tokens_mark (isQuote_of_isBlank h.1) (isWordStart_of_isBlank h.1),
        ih h.2]
      rfl

/-- Blanks at the end of a line are tokens by themselves. -/
theorem tokens_append_blank (t : Text) {s : Text} (h : allBlank s = true) :
    tokens (t ++ s) = tokens t ++ s.map .mark := by
  fun_induction tokens t with
  | case1 => exact tokens_blank h
  | case2 c t hq r hr ih =>
      -- a closed quote does not reach the blanks
      have hclosed := readBody?_append hq (not_mem_of_allBlank hq h) t
      rw [hr, Option.map_some] at hclosed
      rw [List.cons_append, tokens_closed hq hclosed]
      exact congrArg _ ih
  | case3 c t hq hr =>
      -- an open quote takes the blanks in
      have hopen := readBody?_append hq (not_mem_of_allBlank hq h) t
      rw [hr, Option.map_none] at hopen
      rw [List.cons_append, tokens_open hq hopen, ← List.cons_append,
        List.map_append]
  | case4 c t hq hw ih =>
      -- the word ends within `t` or at its end, where a blank follows
      have hword : ∀ d ∈ Text.word t, isWordChar d = true :=
        fun _ => Text.isWordChar_of_mem_word
      have hends : EndsWord (Text.afterWord t ++ s) :=
        (Text.endsWord_afterWord t).append (Text.endsWord_of_allBlank h)
      have hsplit : t ++ s = Text.word t ++ (Text.afterWord t ++ s) := by
        rw [← List.append_assoc, Text.word_append_afterWord]
      rw [List.cons_append, tokens_wordStart hw, hsplit,
        Text.word_append hword hends, Text.afterWord_append hword hends, ih]
      rfl
  | case5 c t hq hw ih =>
      rw [List.cons_append,
        tokens_mark (by simpa using hq) (by simpa using hw), ih]
      rfl

-- ============================================================== backwards

/-- The text of the tokens has these tokens. -/
def Reads (ts : List Token) : Prop := tokens (sourceOf ts) = ts

theorem reads_tokens (t : Text) : Reads (tokens t) := by
  unfold Reads
  rw [sourceOf_tokens]

/-- Is the token a quote? -/
def Token.isQuoteMark : Token → Bool
  | .mark c => isQuote c
  | _ => false

/-- What is left behind a token other than an open quote. -/
theorem Reads.tail {tok : Token} {ts : List Token} (h : Reads (tok :: ts))
    (hquote : tok.isQuoteMark = false) : Reads ts := by
  unfold Reads at h
  -- each token but an open quote is followed by the tokens of a text
  suffices hrest : ∃ rest, ts = tokens rest by
    obtain ⟨rest, rfl⟩ := hrest
    exact reads_tokens rest
  generalize sourceOf (tok :: ts) = line at h
  match line with
  | [] => cases tokens_nil.symm.trans h
  | c :: t =>
      by_cases hq : isQuote c = true
      · cases hread : readBody? c t with
        | some r =>
            rw [tokens_closed hq hread] at h
            exact ⟨r.rest, (List.cons.inj h).2.symm⟩
        | none =>
            rw [tokens_open hq hread] at h
            rw [← (List.cons.inj h).1] at hquote
            exact absurd (hq.symm.trans hquote) (by decide)
      · by_cases hw : isWordStart c = true
        · rw [tokens_wordStart hw] at h
          exact ⟨Text.afterWord t, (List.cons.inj h).2.symm⟩
        · rw [tokens_mark (by simpa using hq) (by simpa using hw)] at h
          exact ⟨t, (List.cons.inj h).2.symm⟩

end GridScript.Script
