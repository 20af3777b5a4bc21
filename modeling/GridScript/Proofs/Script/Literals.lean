/-
The literals that are gathered. A statement is gathered if its right-hand
side is taken for a literal, which is told from its first and last character
and from what it holds in between. That this is enough is what is shown
here: the right-hand side is a numeral, a constant, or one string literal
from end to end (`isData_selfContained`).

# What may be moved

A statement may be moved if its right-hand side has the same value wherever
it stands. That is so if it refers to no name and calls nothing
(`SelfContained`). Words are names, except for the constants and those that
go on with a number or with what stands in front of a point. How expressions
are evaluated is left open but for one rule: without calls, what one is worth
depends on a state only by what its names stand for there (`Interpreter`).

# Why no escape is missed

The reader of a literal passes over the character behind a backslash, so a
quote behind one closes nothing. In a plain string the last quote is the only
one behind the first, and the character in front of it is no backslash; every
escape begins and ends before it (`readBody?_plain`).
-/
import GridScript.Proofs.Number.Numeral
import GridScript.Proofs.Script.Calls
import GridScript.Script.Normal

namespace GridScript.Script

open Number (Digits Numeral Mantissa Exponent)
open Text (isBlank allBlank isWordChar isWordStart EndsWord)

-- =========================================================== assignments

theorem eq_of_map_before {t lhs rhs source : Text} {cut : Option (Text × Text)}
    (hcut : ∀ lhs' rhs', cut = some (lhs', rhs') →
      source = lhs' ++ '=' :: rhs')
    (h : cut.map (before t) = some (lhs, rhs)) :
    t ++ source = lhs ++ '=' :: rhs := by
  obtain ⟨⟨lhs', rhs'⟩, hfound, heq⟩ := Option.map_eq_some_iff.1 h
  obtain ⟨rfl, rfl⟩ := Prod.mk.inj heq
  rw [hcut lhs' rhs' hfound, List.append_assoc]

/-- What is cut at an equals sign is put together around it. -/
theorem sourceOf_of_cutAtAssign? {ts : List Token} {depth : Nat}
    {last : Option Char} {lhs rhs : Text}
    (h : cutAtAssign? depth last ts = some (lhs, rhs)) :
    sourceOf ts = lhs ++ '=' :: rhs := by
  induction ts generalizing depth last lhs rhs with
  | nil => cases h
  | cons t ts ih =>
      have hsource : sourceOf (t :: ts) = t.source ++ sourceOf ts :=
        List.flatMap_cons
      rw [hsource]
      cases t with
      | word w => exact eq_of_map_before (fun _ _ => ih) h
      | quoted spelling text => exact eq_of_map_before (fun _ _ => ih) h
      | mark c =>
          rw [cutAtAssign?] at h
          split at h
          case isTrue => cases h
          case isFalse =>
              split at h
              case isFalse => exact eq_of_map_before (fun _ _ => ih) h
              case isTrue hassign =>
                  split at h
                  case isTrue => cases h
                  case isFalse =>
                      obtain ⟨rfl, rfl⟩ := Prod.mk.inj (Option.some.inj h)
                      rw [hassign.1]
                      rfl

/-- A line that assigns is cut at its first equals sign. -/
theorem exists_of_assignment? {l target value : Text}
    (h : assignment? l = some (target, value)) :
    ∃ before after, l = before ++ '=' :: after ∧ '=' ∉ before
      ∧ target = Text.trim before ∧ value = Text.trim after
      ∧ isTarget target = true := by
  unfold assignment? at h
  simp only [Option.bind_eq_bind] at h
  obtain ⟨⟨before, after⟩, hcut, h⟩ := Option.bind_eq_some_iff.1 h
  dsimp only at h
  split at h
  case isFalse => cases h
  case isTrue hparts =>
      obtain ⟨rfl, rfl⟩ := Prod.mk.inj (Option.some.inj h)
      rw [Bool.and_eq_true] at hparts
      refine ⟨before, after, ?_, fun hmem => ?_, rfl, rfl, hparts.1⟩
      · rw [← sourceOf_tokens l]
        exact sourceOf_of_cutAtAssign? hcut
      · have htarget := hparts.1
        unfold isTarget at htarget
        rw [Bool.and_eq_true, List.all_eq_true] at htarget
        have hequals := htarget.2 '=' (mem_trim (by decide) hmem)
        revert hequals
        decide

-- ========================================================= plain strings

/-- What stands between the quotes of a plain string. -/
structure PlainInner (inner : Text) : Prop where
  unquoted : ∀ c ∈ inner, isQuote c = false
  closed : inner.getLast? ≠ some '\\'

theorem PlainInner.tail {c : Char} {t : Text} (h : PlainInner (c :: t)) :
    PlainInner t where
  unquoted d hd := h.unquoted d (List.mem_cons_of_mem c hd)
  closed hlast := by
    cases t with
    | nil => cases hlast
    | cons d t => exact h.closed (by rw [List.getLast?_cons_cons, hlast])

/-- Something was read, and nothing is left. -/
def ReadUp (r : Option QuotedRest) : Prop :=
  ∃ read, r = some read ∧ read.rest = []

theorem ReadUp.map_prepend {r : Option QuotedRest} (h : ReadUp r)
    (spelled text : Text) :
    ReadUp (r.map (.prepend spelled text)) := by
  obtain ⟨read, rfl, hrest⟩ := h
  exact ⟨_, rfl, hrest⟩

theorem hexPair?_of_isQuote_second {q : Char} (hq : isQuote q = true)
    (a : Char) :
    hexPair? a q = none := by
  have hlow : Number.hexValue? q = none := by
    rcases isQuote_iff.1 hq with rfl | rfl <;> rfl
  unfold hexPair?
  rw [hlow]
  split
  case isTrue => rfl
  case isFalse => cases Number.hexValue? a <;> rfl

/-- A plain string is read up to its last quote. -/
theorem readBody?_plain {q : Char} (hq : isQuote q = true) {inner : Text}
    (h : PlainInner inner) :
    ReadUp (readBody? q (inner ++ [q])) := by
  -- an escape takes two to four characters at once, so this goes by the length
  induction hn : inner.length using Nat.strongRecOn generalizing inner with
  | ind n ih =>
    subst hn
    have hlater : ∀ {t : Text}, t.length < inner.length → PlainInner t →
        ReadUp (readBody? q (t ++ [q])) := fun hlt ht => ih _ hlt ht rfl
    match inner, h with
    | [], _ =>
        rw [List.nil_append, readBody?_cons _ (isQuote_ne_backslash hq),
          if_pos rfl]
        exact ⟨_, rfl, rfl⟩
    | c :: t, h =>
        have hshorter : t.length < (c :: t).length := Nat.lt_succ_self _
        by_cases hslash : c = '\\'
        · subst hslash
          cases t with
          | nil => exact absurd rfl h.closed
          | cons e t =>
              have hrest : ReadUp (readBody? q (t ++ [q])) :=
                hlater (Nat.lt_trans (Nat.lt_succ_self _) hshorter) h.tail.tail
              by_cases hhex : e = 'x' ∧ t ≠ []
              · -- two characters may be digits, but the last quote is none
                obtain ⟨rfl, hne⟩ := hhex
                obtain ⟨a, t, rfl⟩ := List.exists_cons_of_ne_nil hne
                cases t with
                | nil =>
                    show ReadUp (readBody? q ('\\' :: 'x' :: a :: q :: []))
                    rw [readBody?_hex, hexPair?_of_isQuote_second hq]
                    exact hrest.map_prepend _ _
                | cons b t =>
                    show ReadUp
                        (readBody? q ('\\' :: 'x' :: a :: b :: (t ++ [q])))
                    rw [readBody?_hex]
                    cases hexPair? a b with
                    | none => exact hrest.map_prepend _ _
                    | some d =>
                        refine (hlater ?_ h.tail.tail.tail.tail).map_prepend _
                          _
                        simp only [List.length_cons]
                        omega
              · have hletter : ∀ a b rest, e = 'x' →
                    t ++ [q] ≠ a :: b :: rest := by
                  intro a b rest hx heq
                  have hnil : t = [] :=
                    Decidable.not_not.1 fun hne => hhex ⟨hx, hne⟩
                  rw [hnil] at heq
                  cases heq
                rw [List.cons_append, List.cons_append,
                  readBody?_letter hletter]
                cases letterEscape? e with
                | none => exact hrest.map_prepend _ _
                | some d => exact hrest.map_prepend _ _
        · have hquote : c ≠ q := by
            rintro rfl
            rw [h.unquoted c List.mem_cons_self] at hq
            cases hq
          rw [List.cons_append, readBody?_cons _ hslash, if_neg hquote]
          exact (hlater hshorter h.tail).map_prepend _ _

/-- A plain string is one literal from end to end. -/
theorem exists_of_isPlainString {t : Text} (h : isPlainString t = true) :
    (∃ text, readQuoted? t = some (text, []))
      ∧ ∃ text, tokens t = [.quoted t text] := by
  unfold isPlainString at h
  cases t with
  | nil => cases h
  | cons q t =>
      dsimp only at h
      cases hinner : Text.beforeLast? q t with
      | none =>
          rw [hinner] at h
          cases h
      | some inner =>
          rw [hinner] at h
          simp only [Bool.and_eq_true, Bool.not_eq_true', List.any_eq_false,
            bne_iff_ne, Bool.not_eq_true] at h
          obtain ⟨⟨hq, hunquoted⟩, hclosed⟩ := h
          obtain rfl := Text.eq_of_beforeLast? hinner
          obtain ⟨r, hread, hrest⟩ := readBody?_plain hq ⟨hunquoted, hclosed⟩
          have hspelling := spelling_readBody? hread
          rw [hrest, List.append_nil] at hspelling
          refine ⟨⟨r.text, ?_⟩, r.text, ?_⟩
          · rw [readQuoted?, if_pos hq, hread, Option.map_some, hrest]
          · rw [tokens_closed hq hread, hrest, tokens_nil, hspelling]

-- =========================================================== expressions

/-- The words that stand for a value of their own. -/
def constants : List Text := ["None".toList, "True".toList, "False".toList]

namespace Token

/-- Does a word behind the token go on with what stands in front of it, be
it the exponent of a number or what is behind a point? -/
def goesOn : Token → Bool
  | mark c => c.isDigit || c == '.'
  | _ => false

def isQuoted : Token → Bool
  | quoted .. => true
  | _ => false

end Token

/-- The names that an expression refers to, behind a token. A letter that is
not of ASCII may begin a name as well. -/
def namesBehind : Option Token → List Token → List Text
  | _, [] => []
  | before, .word w :: ts =>
    (if constants.contains w || before.any Token.goesOn then [] else [w])
      ++ namesBehind (some (.word w)) ts
  | _, .quoted spelling text :: ts =>
      namesBehind (some (.quoted spelling text)) ts
  | _, .mark c :: ts =>
      (if c.toNat < 128 then [] else [[c]]) ++ namesBehind (some (.mark c)) ts

/-- The names that an expression refers to. -/
def namesIn (e : Text) : List Text := namesBehind none (tokens e)

/-- An expression that says by itself what it is worth. -/
structure SelfContained (e : Text) : Prop where
  nameless : namesIn e = []
  /-- Nothing is called. -/
  callless : Token.mark '(' ∉ tokens e
  /-- There is one literal at most. Three quotes in a row begin a literal of
  another kind, which is taken for several here. -/
  single : ((tokens e).filter Token.isQuoted).length ≤ 1

/-- Something that tells what names stand for in its states, and what
expressions are worth. One that calls nothing is worth the same in any two
states in which its names stand for the same. -/
structure Interpreter (State Object Worth : Type) where
  look : State → Text → Object
  worth : State → Text → Worth
  worth_congr : ∀ {e : Text} {before after : State},
    Token.mark '(' ∉ tokens e →
    ((tokens e).filter Token.isQuoted).length ≤ 1 →
    (∀ name ∈ namesIn e, look before name = look after name) →
      worth before e = worth after e

/-- An expression that says by itself what it is worth has no name that could
stand for something else. -/
theorem Interpreter.worth_eq {State Object Worth : Type}
    (interpreter : Interpreter State Object Worth) {e : Text}
    (h : SelfContained e) (before after : State) :
    interpreter.worth before e = interpreter.worth after e := by
  refine interpreter.worth_congr h.callless h.single fun name hname => ?_
  rw [h.nameless] at hname
  cases hname

-- ========================================================== single tokens

/-- A token by itself that is no name. -/
theorem selfContained_of_token {e : Text} {t : Token}
    (htokens : tokens e = [t]) (hname : namesBehind none [t] = [])
    (hcall : t ≠ .mark '(') : SelfContained e := by
  refine ⟨?_, ?_, ?_⟩
  · unfold namesIn
    rw [htokens, hname]
  · rw [htokens]
    intro hmem
    exact hcall (List.mem_singleton.1 hmem).symm
  · rw [htokens]
    exact List.length_filter_le Token.isQuoted [t]

theorem selfContained_of_mem_constants {e : Text} (h : e ∈ constants) :
    SelfContained e := by
  have hword : Text.IsWord e := by
    revert e
    decide
  have hend : Text.EndsWord [] := fun c hc => by cases hc
  have htokens := tokens_word hword hend
  rw [List.append_nil, tokens_nil] at htokens
  refine selfContained_of_token htokens ?_ nofun
  rw [namesBehind, List.contains_iff_mem.2 h]
  rfl

theorem selfContained_of_quoted {e spelling text : Text}
    (h : tokens e = [.quoted spelling text]) :
    SelfContained e :=
  selfContained_of_token h rfl nofun

-- =============================================================== numerals

/-- A character of a numeral that is no mark of an exponent. -/
def InNumeral (c : Char) : Prop :=
  c.isDigit = true ∨ c = '.' ∨ c = '+' ∨ c = '-'

theorem InNumeral.facts {c : Char} (h : InNumeral c) :
    (isQuote c = false ∧ isWordStart c = false) ∧ c.toNat < 128 ∧ c ≠ '(' := by
  rcases h with hdigit | rfl | rfl | rfl
  · have hword := Number.isWordChar_of_isDigit hdigit
    have hbounds := Text.isDigit_iff.1 hdigit
    refine ⟨⟨isQuote_of_isWordChar hword, ?_⟩, by omega, ?_⟩
    · unfold isWordStart
      rw [Text.isAlpha_of_isDigit hdigit, Bool.false_or, beq_eq_false_iff_ne]
      rintro rfl
      revert hdigit
      decide
    · rintro rfl
      revert hdigit
      decide
  · decide
  · decide
  · decide

section Marks

variable {cs : Text} (h : ∀ c ∈ cs, InNumeral c)
include h

theorem tokens_inNumeral (rest : Text) :
    tokens (cs ++ rest) = cs.map .mark ++ tokens rest := by
  induction cs with
  | nil => rfl
  | cons c cs ih =>
      obtain ⟨hc, hrest⟩ := List.forall_mem_cons.1 h
      rw [List.cons_append, tokens_mark hc.facts.1.1 hc.facts.1.2, ih hrest]
      rfl

theorem namesBehind_inNumeral (before : Option Token) (ts : List Token) :
    namesBehind before (cs.map .mark ++ ts)
      = namesBehind ((cs.getLast?.map Token.mark).or before) ts := by
  induction cs generalizing before with
  | nil => rfl
  | cons c cs ih =>
      obtain ⟨hc, hrest⟩ := List.forall_mem_cons.1 h
      rw [List.map_cons, List.cons_append, namesBehind, if_pos hc.facts.2.1,
        List.nil_append, ih hrest]
      cases cs with
      | nil => rfl
      | cons d cs =>
          rw [List.getLast?_cons_cons]
          cases hlast : (d :: cs).getLast? with
          | none => cases List.getLast?_eq_none_iff.1 hlast
          | some e => rfl

end Marks

theorem inNumeral_of_sign {sign : Text} (h : sign ∈ Number.signs) :
    ∀ c ∈ sign, InNumeral c := by
  intro c hc
  unfold Number.signs at h
  simp only [List.mem_cons, List.not_mem_nil, or_false] at h
  rcases h with rfl | rfl | rfl
  · cases hc
  · exact Or.inr (Or.inr (Or.inl (List.mem_singleton.1 hc)))
  · exact Or.inr (Or.inr (Or.inr (List.mem_singleton.1 hc)))

/-- The tokens of an exponent: a word, and what its sign keeps apart from
it. -/
theorem tokens_exponent {mark : Char} (hmark : mark = 'e' ∨ mark = 'E')
    {sign digits : Text} (hsign : sign ∈ Number.signs)
    (hdigits : Digits digits) :
    ∃ w back : Text,
      tokens (mark :: (sign ++ digits)) = .word w :: back.map .mark
      ∧ ∀ c ∈ back, InNumeral c := by
  have hstart : isWordStart mark = true := by
    rcases hmark with rfl | rfl <;> rfl
  have hback : ∀ c ∈ sign ++ digits, InNumeral c := by
    intro c hc
    rcases List.mem_append.1 hc with hc | hc
    · exact inNumeral_of_sign hsign c hc
    · exact Or.inl (hdigits c hc)
  have hrest : ∀ c ∈ Text.afterWord (sign ++ digits), InNumeral c :=
    fun c hc =>
      hback c ((List.dropWhile_suffix isWordChar).subset hc)
  refine ⟨mark :: Text.word (sign ++ digits), Text.afterWord (sign ++ digits),
    ?_, hrest⟩
  have htokens := tokens_inNumeral hrest []
  rw [List.append_nil, tokens_nil, List.append_nil] at htokens
  rw [tokens_wordStart hstart, htokens]

/-- A numeral is marks, with a word behind a digit or a point at most. -/
theorem tokens_numeral {t : Text} (h : Numeral t) :
    ∃ (front back : Text) (words : List Token),
      tokens t = front.map .mark ++ (words ++ back.map .mark)
      ∧ (∀ c ∈ front, InNumeral c) ∧ (∀ c ∈ back, InNumeral c)
      ∧ (words = [] ∨ ∃ w c, words = [.word w] ∧ front.getLast? = some c
        ∧ (Token.mark c).goesOn = true) := by
  obtain ⟨sign, mantissa, exponent, rfl, hsign, hmantissa, hexponent⟩ := h
  have hfront : ∀ c ∈ sign ++ mantissa, InNumeral c := by
    intro c hc
    rcases List.mem_append.1 hc with hc | hc
    · exact inNumeral_of_sign hsign c hc
    · exact (hmantissa.chars.1 c hc).imp id Or.inl
  have htokens := tokens_inNumeral hfront exponent
  rw [List.append_assoc] at htokens
  cases hexponent with
  | none =>
      rw [tokens_nil] at htokens
      exact ⟨sign ++ mantissa, [], [], htokens, hfront, List.forall_mem_nil _,
        Or.inl rfl⟩
  | power hmark hsign' hdigits _ =>
      obtain ⟨w, back, hpower, hback⟩ := tokens_exponent hmark hsign' hdigits
      obtain ⟨d, hd, -⟩ := hmantissa.chars.2
      cases hlast : mantissa.getLast? with
      | none =>
          rw [List.getLast?_eq_none_iff.1 hlast] at hd
          cases hd
      | some c =>
          rw [hpower] at htokens
          refine ⟨sign ++ mantissa, back, [.word w], htokens, hfront, hback,
            Or.inr ⟨w, c, rfl, ?_, ?_⟩⟩
          · rw [List.getLast?_append, hlast, Option.some_or]
          · -- the mantissa ends with a digit or its point
            rcases hmantissa.chars.1 c (List.mem_of_getLast? hlast)
              with hc | rfl
            · exact Bool.or_eq_true_iff.2 (Or.inl hc)
            · rfl

theorem selfContained_of_numeral {t : Text} (h : Numeral t) :
    SelfContained t := by
  obtain ⟨front, back, words, htokens, hfront, hback, hwords⟩ :=
    tokens_numeral h
  -- behind the word there are marks alone, and no name
  have hend : ∀ before, namesBehind before (back.map .mark) = [] := by
    intro before
    have hnames := namesBehind_inNumeral hback before []
    rw [List.append_nil] at hnames
    rw [hnames, namesBehind]
  have hmember : ∀ tok ∈ tokens t, (∃ c, tok = .mark c ∧ InNumeral c)
      ∨ ∃ w, tok = .word w := by
    intro tok htok
    rw [htokens, List.mem_append, List.mem_append] at htok
    rcases htok with htok | htok | htok
    · obtain ⟨c, hc, rfl⟩ := List.mem_map.1 htok
      exact Or.inl ⟨c, rfl, hfront c hc⟩
    · rcases hwords with rfl | ⟨w, c, rfl, -⟩
      · cases htok
      · exact Or.inr ⟨w, List.mem_singleton.1 htok⟩
    · obtain ⟨c, hc, rfl⟩ := List.mem_map.1 htok
      exact Or.inl ⟨c, rfl, hback c hc⟩
  refine ⟨?_, ?_, ?_⟩
  · unfold namesIn
    rw [htokens, namesBehind_inNumeral hfront]
    rcases hwords with rfl | ⟨w, c, rfl, hlast, hgoes⟩
    · exact hend _
    -- the one word goes on with the number in front of it
    · rw [hlast, Option.map_some, Option.some_or, List.singleton_append,
        namesBehind, Option.any_some, hgoes, Bool.or_true, hend]
      rfl
  · intro hcall
    rcases hmember _ hcall with ⟨c, heq, hc⟩ | ⟨w, heq⟩
    · injection heq with heq
      exact hc.facts.2.2 heq.symm
    · cases heq
  · rw [List.filter_eq_nil_iff.2]
    · exact Nat.zero_le 1
    · intro tok htok
      rcases hmember tok htok with ⟨c, rfl, -⟩ | ⟨w, rfl⟩
        <;> exact Bool.false_ne_true

-- =============================================================== literals

/-- What is taken for a literal is a numeral, a constant, or one string
literal from end to end. -/
theorem isLiteral_cases {t : Text} (h : isLiteral t = true) :
    Numeral (Text.trim t) ∨ Text.trim t ∈ constants
      ∨ isPlainString (Text.trim t) = true := by
  unfold isLiteral at h
  simp only [Bool.or_eq_true, beq_iff_eq] at h
  rcases h with (((hnumeral | hnone) | htrue) | hfalse) | hplain
  · exact Or.inl (Number.isNumeral_iff.1 hnumeral)
  · exact Or.inr (Or.inl (by rw [hnone]; decide))
  · exact Or.inr (Or.inl (by rw [htrue]; decide))
  · exact Or.inr (Or.inl (by rw [hfalse]; decide))
  · exact Or.inr (Or.inr hplain)

theorem selfContained_of_isLiteral {t : Text} (h : isLiteral t = true) :
    SelfContained (Text.trim t) := by
  rcases isLiteral_cases h with hnumeral | hconstant | hplain
  · exact selfContained_of_numeral hnumeral
  · exact selfContained_of_mem_constants hconstant
  · obtain ⟨-, text, htokens⟩ := exists_of_isPlainString hplain
    exact selfContained_of_quoted htokens

/-- A statement that is gathered is one line, which assigns to the right of
its first equals sign a numeral, a constant, or a string literal that is read
from its first character to its last. Whatever this right-hand side is
evaluated by, it refers to no name and calls nothing, so it is worth the same
in the state where the statement stands as in any other, be it one before. -/
theorem isData_selfContained {s : Statement} (h : s.isData = true)
    {State Object Worth : Type}
    (interpreter : Interpreter State Object Worth) :
    s.lines = [s.head]
      ∧ ∃ before after, s.head = before ++ '=' :: after ∧ '=' ∉ before
        ∧ assignment? s.head = some (Text.trim before, Text.trim after)
        ∧ (Numeral (Text.trim after) ∨ Text.trim after ∈ constants
          ∨ ∃ text, readQuoted? (Text.trim after) = some (text, []))
        ∧ SelfContained (Text.trim after)
        ∧ ∀ here there,
          interpreter.worth here (Text.trim after)
            = interpreter.worth there (Text.trim after) := by
  unfold Statement.isData at h
  rw [Bool.and_eq_true, List.isEmpty_iff] at h
  obtain ⟨hnested, hliteral⟩ := h
  cases hassigned : assignment? s.head with
  | none =>
      rw [hassigned] at hliteral
      cases hliteral
  | some assigned =>
      obtain ⟨target, value⟩ := assigned
      rw [hassigned] at hliteral
      dsimp only at hliteral
      obtain ⟨before, after, hhead, hfirst, rfl, rfl, -⟩ :=
        exists_of_assignment? hassigned
      have hcases := isLiteral_cases hliteral
      have hself := selfContained_of_isLiteral hliteral
      rw [Text.trim_trim] at hcases hself
      refine ⟨congrArg (s.head :: ·) hnested, before, after, hhead, hfirst,
        rfl, ?_, hself, interpreter.worth_eq hself⟩
      exact hcases.imp_right fun h => h.imp_right fun h =>
        (exists_of_isPlainString h).1

/-- What literals and single words are worth, where a state says what names
stand for. -/
def worthOf (state : Text → Option Value) : List Token → Option Value
  | [.word w] =>
    if w = "None".toList then some .empty
    else if w = "True".toList then some (.boolean true)
    else if w = "False".toList then some (.boolean false)
    else state w
  | [.quoted _ text] => some (.text text)
  | ts => (Number.readDouble? (sourceOf ts)).map .number

theorem worthOf_congr {ts : List Token} {before after : Text → Option Value}
    (h : ∀ name ∈ namesBehind none ts, before name = after name) :
    worthOf before ts = worthOf after ts := by
  match ts, h with
  | [], _ => rfl
  | [.mark c], _ => rfl
  | [.quoted spelling text], _ => rfl
  | t :: u :: ts, _ => cases t <;> rfl
  | [.word w], h =>
      by_cases hconstant : w ∈ constants
      · unfold constants at hconstant
        simp only [List.mem_cons, List.not_mem_nil, or_false] at hconstant
        rcases hconstant with rfl | rfl | rfl <;> rfl
      · -- the word is a name, and stands for the same
        have hcontains : constants.contains w = false :=
          Bool.eq_false_iff.2 fun hc => hconstant (List.contains_iff_mem.1 hc)
        have hname : w ∈ namesBehind none [.word w] := by
          rw [namesBehind, hcontains]
          exact List.mem_singleton_self w
        simp only [worthOf, h w hname]

/-- An interpreter of literals and single words. -/
def wordInterpreter :
    Interpreter (Text → Option Value) (Option Value) (Option Value) where
  look state name := state name
  worth state e := worthOf state (tokens e)
  worth_congr _ _ h := worthOf_congr h

/-- A literal that reads like a call, with an escape in it. -/
def callText : Text := "\"b0 + c_sum(a1) \\x41\"".toList

def callStatement : Statement :=
  ⟨"a0 =\t".toList ++ callText ++ " ".toList, []⟩

theorem isData_selfContained_callText :
    callStatement.isData = true
      ∧ assignment? callStatement.head = some ("a0".toList, callText)
      ∧ readQuoted? callText = some ("b0 + c_sum(a1) A".toList, [])
      ∧ SelfContained callText
      ∧ (∀ here there, wordInterpreter.worth here callText
        = wordInterpreter.worth there callText)
      ∧ wordInterpreter.worth (fun _ => none) callText
        = some (.text "b0 + c_sum(a1) A".toList)
      ∧ wordInterpreter.worth (fun _ => none) "b0".toList
          ≠ wordInterpreter.worth (fun _ => some .empty) "b0".toList := by
  have hdata : callStatement.isData = true := by decide +kernel
  have hassigned : assignment? callStatement.head
      = some ("a0".toList, callText) := by
    decide +kernel
  obtain ⟨-, before, after, -, -, hparts, -, hself, hworth⟩ :=
    isData_selfContained hdata wordInterpreter
  have hafter : Text.trim after = callText :=
    (congrArg Prod.snd (Option.some.inj (hparts.symm.trans hassigned)))
  rw [hafter] at hself hworth
  refine ⟨hdata, hassigned, ?_, hself, hworth, ?_, ?_⟩ <;> decide +kernel

end GridScript.Script
