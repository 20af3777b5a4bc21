/-
The phrases of a script, written and read back. A local name is one word;
the line that binds it is read as the declaration it is, and the line that
opens a region as the header it is. A creation that is written with
another binding is the same creation, and so is a creation or a
declaration without the blanks at its end.
-/
import GridScript.Proofs.Script.Tokens
import GridScript.Script.Line

namespace GridScript.Script

open Text (IsWord EndsWord isBlank allBlank isWordChar isWordStart Unbroken)

-- ========================================================== local names

theorem isWordChar_nameChar (c : Char) : isWordChar (nameChar c) = true := by
  unfold nameChar
  split
  case isTrue h => exact h
  case isFalse => rfl

/-- A local name is one word. -/
theorem isWord_tableAlias (id : Text) : IsWord (tableAlias id) := by
  have hchars : ∀ c ∈ id.map nameChar, isWordChar c = true := by
    intro c hc
    obtain ⟨d, -, rfl⟩ := List.mem_map.1 hc
    exact isWordChar_nameChar d
  have hstarted : IsWord
      (if needsStart (id.map nameChar) then 't' :: '_' :: id.map nameChar
       else id.map nameChar) := by
    split
    case isTrue =>
        refine ⟨rfl, ?_⟩
        intro c hc
        rcases List.mem_cons.1 hc with rfl | hc
        · rfl
        · exact hchars c hc
    case isFalse hstart =>
        match id.map nameChar, hchars, hstart with
        | [], _, hstart => exact absurd rfl hstart
        | c :: t, hchars, hstart =>
            -- the first character needs no start, so it is no digit
            refine ⟨?_, fun d hd => hchars d (List.mem_cons_of_mem c hd)⟩
            have hc := hchars c List.mem_cons_self
            have hdigit : c.isDigit = false := by
              simpa [needsStart] using hstart
            unfold Text.isWordChar Char.isAlphanum at hc
            rw [hdigit, Bool.or_false] at hc
            exact hc
  unfold tableAlias
  dsimp only
  generalize (if needsStart (id.map nameChar) then 't' :: '_'
      :: id.map nameChar
      else id.map nameChar) = name at hstarted ⊢
  cases hreserved : reservedWords.contains name with
  | true =>
      rw [if_pos rfl]
      exact hstarted.append (s := ['_']) (List.all_eq_true.1 (by decide))
  | false =>
      rw [if_neg (by decide)]
      exact hstarted

-- ================================================================ eating

theorem skipSpaces_mark {c : Char} (h : c ≠ ' ' ∧ c ≠ '\t') (ts : List Token) :
    skipSpaces (.mark c :: ts) = .mark c :: ts := by
  unfold skipSpaces
  rw [List.dropWhile_cons_of_neg]
  simp [Token.isSpace, h.1, h.2]

theorem eatMark?_mark (c d : Char) (ts : List Token) :
    eatMark? c (.mark d :: ts) = if d = c then some ts else none := rfl

theorem eatKeyword?_word (w v : Text) (ts : List Token) :
    eatKeyword? w (.word v :: ts) = if v = w then some ts else none := rfl

-- ============================================================== bindings

/-- The tokens of a binding. -/
theorem tokens_binding {name : Text} (hname : IsWord name) (rest : Text) :
    tokens (name ++ (" = ".toList ++ rest))
      = .word name :: .mark ' ' :: .mark '=' :: .mark ' ' :: tokens rest := by
  have hspaced : " = ".toList ++ rest = ' ' :: '=' :: ' ' :: rest := rfl
  rw [hspaced, tokens_wordPunctuation hname (by decide),
    tokens_punctuation (by decide), tokens_punctuation (by decide)]

theorem eatBinding?_tokens {name : Text} (hname : IsWord name) (rest : Text) :
    eatBinding? (tokens (name ++ (" = ".toList ++ rest)))
      = some (name, skipSpaces (tokens rest)) := by
  rw [tokens_binding hname]
  rfl

/-- The tokens of a look-up. -/
theorem tokens_lookupCall (id rest : Text) :
    tokens (lookupCall id ++ rest)
      = .word projectName :: .mark '.' :: .word lookupMethod :: .mark '('
          :: .quoted (quote id) id :: .mark ')' :: tokens rest := by
  have hcall : lookupCall id ++ rest
      = projectName
        ++ ('.'
          :: (lookupMethod ++ ('(' :: (quote id ++ (')' :: rest))))) := by
    simp only [lookupCall, List.append_assoc, List.cons_append,
      List.nil_append]
  rw [hcall, tokens_wordPunctuation (by decide) (by decide),
    tokens_wordPunctuation (by decide) (by decide), tokens_quote,
    tokens_punctuation (by decide)]

/-- The tokens of the line that binds a local name. -/
theorem tokens_bindingLine (id : Text) :
    tokens (bindingLine id)
      = .word (tableAlias id) :: .mark ' ' :: .mark '=' :: .mark ' '
          :: .word projectName
          :: .mark '.' :: .word lookupMethod :: .mark '('
          :: .quoted (quote id) id
          :: .mark ')' :: [] := by
  have hcall := tokens_lookupCall id []
  rw [List.append_nil, tokens_nil] at hcall
  unfold bindingLine
  rw [List.append_assoc, tokens_binding (isWord_tableAlias id), hcall]

/-- The line that binds a local name declares it. -/
theorem declaration?_bindingLine (id : Text) :
    declaration? (tokens (bindingLine id)) = some (tableAlias id, id) := by
  rw [tokens_bindingLine]
  rfl

theorem trimEnd_bindingLine (id : Text) :
    Text.trimEnd (bindingLine id) = bindingLine id := by
  unfold bindingLine lookupCall
  rw [← List.append_assoc]
  exact Text.trimEnd_snoc (by decide) _

theorem creation?_bindingLine (id : Text) :
    creation? (tokens (bindingLine id)) = none := by
  rw [tokens_bindingLine]
  rfl

-- =============================================================== headers

/-- A name without a point behind it is the table of a header. -/
theorem eatHeaderTable?_word {c : Char} (hc : c ≠ '.') (w : Text)
    (ts : List Token) :
    eatHeaderTable? (.word w :: .mark c :: ts)
      = some (.name w, .mark c :: ts) := by
  have hlookup : eatLookup? (.word w :: .mark c :: ts) = none := by
    have hpoint : eatMark? '.' (.mark c :: ts) = none := if_neg hc
    unfold eatLookup?
    rw [eatKeyword?_word]
    by_cases hw : w = projectName
    · rw [if_pos hw]
      simp only [hpoint, Option.bind_eq_bind, Option.bind_some,
        Option.bind_none]
    · rw [if_neg hw]
      rfl
  unfold eatHeaderTable?
  rw [hlookup]
  rfl

/-- A header from its table on, in the body. -/
theorem header?_body (w : Text) (ts : List Token) :
    header?
      (.word "with".toList :: .mark ' ' :: .word bodyContext :: .mark '('
        :: .word w :: ts)
      = (do
        let (table, ts) ← eatHeaderTable? (.word w :: ts)
        let ts ← eatMark? ')' (skipSpaces ts)
        let ts ← eatMark? ':' (skipSpaces ts)
        if onlySpaces ts then return ⟨table, .body⟩ else none) := rfl

/-- A header from its table on, in a label band. -/
theorem header?_label (w : Text) (ts : List Token) :
    header?
      (.word "with".toList :: .mark ' ' :: .word labelContext :: .mark '('
        :: .word w :: ts)
      = (do
        let (table, ts) ← eatHeaderTable? (.word w :: ts)
        let (region, ts) ← eatBand? (skipSpaces ts)
        let ts ← eatMark? ')' ts
        let ts ← eatMark? ':' (skipSpaces ts)
        if onlySpaces ts then return ⟨table, region⟩ else none) := rfl

/-- The line that opens a region of a table is its header. -/
theorem header?_headerLine (id : Text) (region : Region) :
    header? (tokens (headerLine id region))
      = some ⟨.name (tableAlias id), region⟩ := by
  have hclose : tokens "):".toList = [.mark ')', .mark ':'] := by
    show tokens [')', ':'] = _
    rw [tokens_punctuation (by decide), tokens_punctuation (by decide),
      tokens_nil]
  -- the words up to the parenthesis, for either opener
  have hopen : ∀ opener : Text, IsWord opener → ∀ rest : Text,
      tokens ("with ".toList ++ opener ++ '(' :: rest)
        = .word "with".toList :: .mark ' ' :: .word opener :: .mark '('
          :: tokens rest := by
    intro opener hopener rest
    have hsplit : "with ".toList ++ opener ++ '(' :: rest
        = "with".toList ++ (' ' :: (opener ++ '(' :: rest)) := by
      simp only [List.append_assoc]
      rfl
    rw [hsplit, tokens_wordPunctuation (by decide) (by decide),
      tokens_wordPunctuation hopener (by decide)]
  unfold headerLine
  split
  case isTrue hlabel =>
      have hline : "with ".toList ++ labelContext ++ '(' :: tableAlias id
            ++ ", ".toList
            ++ quote region.name ++ "):".toList
          = "with ".toList ++ labelContext ++ '(' :: (tableAlias id
              ++ (',' :: ' ' :: (quote region.name ++ "):".toList))) := by
        simp only [List.append_assoc, List.cons_append]
        rfl
      rw [hline, hopen labelContext (by decide),
        tokens_wordPunctuation (isWord_tableAlias id) (by decide),
        tokens_punctuation (by decide),
        tokens_quote, hclose, header?_label, eatHeaderTable?_word (by decide)]
      cases region with
      | body => cases hlabel
      | topLabels => rfl
      | bottomLabels => rfl
      | leftLabels => rfl
      | rightLabels => rfl
  case isFalse hlabel =>
      have hline : "with ".toList ++ bodyContext ++ '(' :: tableAlias id
          ++ "):".toList
          = "with ".toList ++ bodyContext
            ++ '(' :: (tableAlias id ++ (')' :: [':'])) := by
        simp only [List.append_assoc, List.cons_append]
        rfl
      have hbody : region = .body := by
        cases region with
        | body => rfl
        | _ => exact absurd rfl hlabel
      rw [hline, hopen bodyContext (by decide),
        tokens_wordPunctuation (isWord_tableAlias id) (by decide),
        tokens_punctuation (by decide),
        tokens_nil, hbody, header?_body, eatHeaderTable?_word (by decide)]
      rfl

-- ======================================================= blanks at the end

/-- The second tokens are the first ones with blanks behind them. -/
def Trailed (ts ts' : List Token) : Prop :=
  ∃ s, allBlank s = true ∧ ts' = ts ++ s.map .mark

/-- The tokens of a line are those of the trimmed line with blanks behind
them. -/
theorem trailed_trimEnd (t : Text) :
    Trailed (tokens (Text.trimEnd t)) (tokens t) := by
  obtain ⟨s, hs, ht⟩ := Text.exists_blank_end t
  refine ⟨s, hs, ?_⟩
  rw [← tokens_append_blank _ hs, ← ht]

namespace Trailed

variable {ts ts' rest' : List Token} {w : Text}

theorem skipSpaces (h : Trailed ts ts') :
    Trailed (Script.skipSpaces ts) (Script.skipSpaces ts') := by
  obtain ⟨s, hs, rfl⟩ := h
  induction ts with
  | nil =>
      -- what is left of blanks are blanks
      induction s with
      | nil => exact ⟨[], rfl, rfl⟩
      | cons c s ih =>
          rw [Text.allBlank_cons, Bool.and_eq_true] at hs
          by_cases hspace : Token.isSpace (.mark c) = true
          · have hskip : Script.skipSpaces ([] ++ (c :: s).map .mark)
                = Script.skipSpaces ([] ++ s.map .mark) :=
                  List.dropWhile_cons_of_pos hspace
            rw [hskip]
            exact ih hs.2
          · refine ⟨c :: s, by rw [Text.allBlank_cons, hs.1, hs.2]; rfl, ?_⟩
            exact List.dropWhile_cons_of_neg hspace
  | cons t ts ih =>
      by_cases hspace : t.isSpace = true
      · have hleft : Script.skipSpaces (t :: ts) = Script.skipSpaces ts :=
          List.dropWhile_cons_of_pos hspace
        have hright : Script.skipSpaces (t :: ts ++ s.map .mark)
            = Script.skipSpaces (ts ++ s.map .mark) :=
              List.dropWhile_cons_of_pos hspace
        rw [hleft, hright]
        exact ih
      · have hleft : Script.skipSpaces (t :: ts) = t :: ts :=
          List.dropWhile_cons_of_neg hspace
        have hright : Script.skipSpaces (t :: ts ++ s.map .mark)
            = t :: ts ++ s.map .mark :=
          List.dropWhile_cons_of_neg hspace
        rw [hleft, hright]
        exact ⟨s, hs, rfl⟩

/-- A token that is no blank is the first of both. -/
theorem head {t : Token} (h : Trailed ts (t :: rest'))
    (ht : ∀ c, t = .mark c → isBlank c = false) :
    ∃ rest, ts = t :: rest ∧ Trailed rest rest' := by
  obtain ⟨s, hs, heq⟩ := h
  cases ts with
  | nil =>
      cases s with
      | nil => cases heq
      | cons c s =>
          rw [Text.allBlank_cons, Bool.and_eq_true] at hs
          injection heq with hhead
          rw [ht c hhead] at hs
          cases hs.1
  | cons t₀ ts =>
      injection heq with hhead htail
      exact ⟨ts, by rw [hhead], s, hs, htail⟩

theorem eatWord? (h : Trailed ts ts')
    (heat : Script.eatWord? ts' = some (w, rest')) :
    ∃ rest, Script.eatWord? ts = some (w, rest) ∧ Trailed rest rest' := by
  match ts', heat with
  | .word v :: tail, heat =>
      injection heat with heat
      injection heat with hv htail
      subst hv htail
      obtain ⟨rest, rfl, hrest⟩ := h.head (fun c hc => by cases hc)
      exact ⟨rest, rfl, hrest⟩

theorem eatKeyword? (h : Trailed ts ts')
    (heat : Script.eatKeyword? w ts' = some rest') :
    ∃ rest, Script.eatKeyword? w ts = some rest ∧ Trailed rest rest' := by
  match ts', heat with
  | .word v :: tail, heat =>
      rw [eatKeyword?_word] at heat
      split at heat
      case isFalse => cases heat
      case isTrue hv =>
          injection heat with htail
          subst hv htail
          obtain ⟨rest, rfl, hrest⟩ := h.head (fun c hc => by cases hc)
          exact ⟨rest, by rw [eatKeyword?_word, if_pos rfl], hrest⟩

theorem eatMark? {c : Char} (hc : isBlank c = false) (h : Trailed ts ts')
    (heat : Script.eatMark? c ts' = some rest') :
    ∃ rest, Script.eatMark? c ts = some rest ∧ Trailed rest rest' := by
  match ts', heat with
  | .mark d :: tail, heat =>
      rw [eatMark?_mark] at heat
      split at heat
      case isFalse => cases heat
      case isTrue hd =>
          injection heat with htail
          subst hd htail
          obtain ⟨rest, rfl, hrest⟩ := h.head (by
            intro e he
            injection he with he
            rw [← he]
            exact hc)
          exact ⟨rest, if_pos rfl, hrest⟩

theorem eatQuoted? (h : Trailed ts ts')
    (heat : Script.eatQuoted? ts' = some (w, rest')) :
    ∃ rest, Script.eatQuoted? ts = some (w, rest) ∧ Trailed rest rest' := by
  match ts', heat with
  | .quoted spelling t :: tail, heat =>
      injection heat with heat
      injection heat with hw htail
      subst hw htail
      obtain ⟨rest, rfl, hrest⟩ := h.head (fun c hc => by cases hc)
      exact ⟨rest, rfl, hrest⟩

theorem eatAssign? (h : Trailed ts ts')
    (heat : Script.eatAssign? ts' = some rest') :
    ∃ rest, Script.eatAssign? ts = some rest ∧ Trailed rest rest' := by
  unfold Script.eatAssign? at heat ⊢
  obtain ⟨tail', heq, hguard⟩ := Option.bind_eq_some_iff.1 heat
  obtain ⟨tail, hmark, htail⟩ := h.eatMark? (by decide) heq
  split at hguard
  case isTrue => cases hguard
  case isFalse hsingle =>
      injection hguard with hguard
      subst hguard
      refine ⟨tail, ?_, htail⟩
      -- a second sign would be there with the blanks as well
      have hfirst : ¬tail.head? = some (.mark '=') := by
        intro hhead
        obtain ⟨s, -, rfl⟩ := htail
        refine hsingle ?_
        rw [List.head?_append, hhead]
        rfl
      rw [hmark]
      exact if_neg hfirst

/-- Blanks make no second equals sign. -/
theorem exists_eatAssign? {rest : List Token} (h : Trailed ts ts')
    (heat : Script.eatAssign? ts = some rest) :
    ∃ rest', Script.eatAssign? ts' = some rest' := by
  obtain ⟨s, hs, rfl⟩ := h
  unfold Script.eatAssign? at heat ⊢
  obtain ⟨tail, hmark, hguard⟩ := Option.bind_eq_some_iff.1 heat
  split at hguard
  case isTrue => cases hguard
  case isFalse hsingle =>
      match ts, hmark with
      | .mark d :: ts, hmark =>
          rw [eatMark?_mark] at hmark
          split at hmark
          case isFalse => cases hmark
          case isTrue hd =>
              injection hmark with hmark
              subst hmark
              refine ⟨ts ++ s.map .mark, ?_⟩
              -- blanks bring no second equals sign
              have hfirst : ¬(ts ++ s.map Token.mark).head?
                  = some (.mark '=') := by
                cases ts with
                | cons t ts => exact hsingle
                | nil =>
                    cases s with
                    | nil => exact hsingle
                    | cons c s =>
                        intro hhead
                        injection hhead with hhead
                        injection hhead with hhead
                        rw [Text.allBlank_cons, hhead] at hs
                        cases hs
              rw [List.cons_append, eatMark?_mark, if_pos hd]
              exact if_neg hfirst

/-- Blanks behind a binding leave it one. -/
theorem exists_eatBinding? {rest : List Token} (h : Trailed ts ts')
    (heat : Script.eatBinding? ts = some (w, rest)) :
    ∃ rest', Script.eatBinding? ts' = some (w, rest') := by
  obtain ⟨s, hs, rfl⟩ := h
  unfold Script.eatBinding? at heat ⊢
  obtain ⟨⟨name, ts₁⟩, hname, heat⟩ := Option.bind_eq_some_iff.1 heat
  obtain ⟨ts₂, hassign, heat⟩ := Option.bind_eq_some_iff.1 heat
  injection heat with heat
  injection heat with hw
  match ts, hname with
  | .word v :: ts, hname =>
      injection hname with hname
      injection hname with hv hts
      subst hv hts hw
      have htrailed : Trailed ts (ts ++ s.map .mark) := ⟨s, hs, rfl⟩
      obtain ⟨rest', hassign'⟩ := htrailed.skipSpaces.exists_eatAssign? hassign
      refine ⟨Script.skipSpaces rest', ?_⟩
      rw [List.cons_append, Script.eatWord?, Option.bind_eq_bind,
        Option.bind_some]
      simp only [hassign']
      rfl

theorem eatBinding? (h : Trailed ts ts')
    (heat : Script.eatBinding? ts' = some (w, rest')) :
    ∃ rest, Script.eatBinding? ts = some (w, rest) ∧ Trailed rest rest' := by
  unfold Script.eatBinding? at heat ⊢
  obtain ⟨⟨name, ts₁'⟩, hname, heat⟩ := Option.bind_eq_some_iff.1 heat
  obtain ⟨ts₂', hassign, heat⟩ := Option.bind_eq_some_iff.1 heat
  injection heat with heat
  injection heat with hw hrest
  subst hw hrest
  obtain ⟨ts₁, hname, h₁⟩ := h.eatWord? hname
  obtain ⟨ts₂, hassign, h₂⟩ := h₁.skipSpaces.eatAssign? hassign
  refine ⟨Script.skipSpaces ts₂, ?_, h₂.skipSpaces⟩
  rw [hname, Option.bind_eq_bind, Option.bind_some]
  simp only [hassign]
  rfl

theorem eatLookup? (h : Trailed ts ts')
    (heat : Script.eatLookup? ts' = some (w, rest')) :
    ∃ rest, Script.eatLookup? ts = some (w, rest) ∧ Trailed rest rest' := by
  unfold Script.eatLookup? at heat ⊢
  obtain ⟨ts₁', hproject, heat⟩ := Option.bind_eq_some_iff.1 heat
  obtain ⟨ts₂', hpoint, heat⟩ := Option.bind_eq_some_iff.1 heat
  obtain ⟨ts₃', hmethod, heat⟩ := Option.bind_eq_some_iff.1 heat
  obtain ⟨ts₄', hopening, heat⟩ := Option.bind_eq_some_iff.1 heat
  obtain ⟨⟨id, ts₅'⟩, hid, heat⟩ := Option.bind_eq_some_iff.1 heat
  obtain ⟨ts₆', hclosing, heat⟩ := Option.bind_eq_some_iff.1 heat
  injection heat with heat
  injection heat with hw hrest
  subst hw hrest
  obtain ⟨ts₃₀', hparenthesis, rfl⟩ := Option.map_eq_some_iff.1 hopening
  obtain ⟨ts₁, hproject, h₁⟩ := h.eatKeyword? hproject
  obtain ⟨ts₂, hpoint, h₂⟩ := h₁.eatMark? (by decide) hpoint
  obtain ⟨ts₃, hmethod, h₃⟩ := h₂.eatKeyword? hmethod
  obtain ⟨ts₄, hparenthesis, h₄⟩ :=
    h₃.skipSpaces.eatMark? (by decide) hparenthesis
  obtain ⟨ts₅, hid, h₅⟩ := h₄.skipSpaces.eatQuoted? hid
  obtain ⟨ts₆, hclosing, h₆⟩ := h₅.skipSpaces.eatMark? (by decide) hclosing
  have hopening : eatOpening? ts₃ = some (Script.skipSpaces ts₄) := by
    unfold eatOpening?
    rw [hparenthesis]
    rfl
  refine ⟨ts₆, ?_, h₆⟩
  simp only [hproject, hpoint, hmethod, hopening, hid, hclosing,
    Option.bind_eq_bind, Option.bind_some]
  rfl

theorem onlyComment (h : Trailed ts ts')
    (hend : Script.onlyComment ts' = true) :
    Script.onlyComment ts = true := by
  obtain ⟨s, -, hskip⟩ := h.skipSpaces
  unfold Script.onlyComment at hend ⊢
  cases hleft : Script.skipSpaces ts with
  | nil => rfl
  | cons t rest =>
      rw [hskip, hleft] at hend
      exact hend

theorem keywordString? {key : Text} (h : Trailed ts ts')
    (hfound : Script.keywordString? key ts' = some w) :
    Script.keywordString? key ts = some w := by
  obtain ⟨s, hs, rfl⟩ := h
  induction ts with
  | nil =>
      -- there is no keyword among blanks
      exfalso
      induction s with
      | nil => cases hfound
      | cons c s ih =>
          rw [Text.allBlank_cons, Bool.and_eq_true] at hs
          have hskip : Script.keywordString? key ([] ++ (c :: s).map .mark)
              = Script.keywordString? key ([] ++ s.map .mark) :=
            if_neg (by rw [isQuote_of_isBlank hs.1]; decide)
          rw [hskip] at hfound
          exact ih hs.2 hfound
  | cons t ts ih =>
      cases t with
      | mark c =>
          rw [List.cons_append, Script.keywordString?] at hfound
          rw [Script.keywordString?]
          split at hfound
          case isTrue => cases hfound
          case isFalse hq => rw [if_neg hq, ih hfound]
      | quoted spelling t =>
          rw [List.cons_append, Script.keywordString?] at hfound
          rw [Script.keywordString?, ih hfound]
      | word v =>
          have htail : Trailed ts (ts ++ s.map .mark) := ⟨s, hs, rfl⟩
          rw [List.cons_append, Script.keywordString?] at hfound
          rw [Script.keywordString?]
          split at hfound
          case isFalse hv => rw [if_neg hv, ih hfound]
          case isTrue hv =>
              rw [if_pos hv]
              split at hfound
              next ts₁' hassign =>
                  obtain ⟨⟨w', ts₂'⟩, hquoted, rfl⟩ :=
                    Option.map_eq_some_iff.1 hfound
                  obtain ⟨ts₁, hassign, h₁⟩ :=
                    htail.skipSpaces.eatAssign? hassign
                  obtain ⟨ts₂, hquoted, -⟩ := h₁.skipSpaces.eatQuoted? hquoted
                  rw [hassign]
                  simp only [hquoted, Option.map_some]
              next hnone =>
                  -- no equals sign here, and none that the blanks bring
                  have hassign : Script.eatAssign? (Script.skipSpaces ts)
                      = none := by
                    cases hsome : Script.eatAssign? (Script.skipSpaces ts) with
                    | none => rfl
                    | some rest =>
                        obtain ⟨rest', hrest'⟩ :=
                          htail.skipSpaces.exists_eatAssign? hsome
                        rw [hrest'] at hnone
                        cases hnone
                  rw [hassign]
                  exact ih hfound

end Trailed

-- ============================================================ declarations

/-- A declaration without the blanks at its end is the same one. -/
theorem declaration?_trimEnd {l name table : Text}
    (h : declaration? (tokens l) = some (name, table)) :
    declaration? (tokens (Text.trimEnd l)) = some (name, table) := by
  unfold declaration? at h ⊢
  obtain ⟨⟨name', ts₁'⟩, hbinding, h⟩ := Option.bind_eq_some_iff.1 h
  obtain ⟨⟨table', ts₂'⟩, hlookup, h⟩ := Option.bind_eq_some_iff.1 h
  obtain ⟨ts₁, hbinding, h₁⟩ := (trailed_trimEnd l).eatBinding? hbinding
  obtain ⟨ts₂, hlookup, h₂⟩ := h₁.eatLookup? hlookup
  dsimp only at h
  split at h
  case isFalse => cases h
  case isTrue hend =>
      simp only [hbinding, hlookup, Option.bind_eq_bind, Option.bind_some,
        h₂.onlyComment hend, if_true]
      exact h

/-- A binding begins with a word and an equals sign, with spaces between. -/
theorem exists_word_of_eatBinding? {ts rest : List Token} {name : Text}
    (h : eatBinding? ts = some (name, rest)) :
    ∃ ts₁ ts₂, ts = .word name :: ts₁ ∧ skipSpaces ts₁ = .mark '=' :: ts₂
      ∧ rest = skipSpaces ts₂ := by
  unfold eatBinding? at h
  obtain ⟨⟨name', ts₁⟩, hword, h⟩ := Option.bind_eq_some_iff.1 h
  obtain ⟨ts₂, hassign, h⟩ := Option.bind_eq_some_iff.1 h
  injection h with h
  injection h with hname hrest
  subst hname hrest
  unfold eatAssign? at hassign
  obtain ⟨ts₃, hmark, hassign⟩ := Option.bind_eq_some_iff.1 hassign
  split at hassign
  case isTrue => cases hassign
  case isFalse =>
      injection hassign with hassign
      subst hassign
      match ts, hword with
      | .word w :: ts, hword =>
          injection hword with hword
          injection hword with hw hts
          subst hw hts
          cases hskip : skipSpaces ts with
          | nil =>
              rw [hskip] at hmark
              cases hmark
          | cons t tail =>
              rw [hskip] at hmark
              cases t with
              | word v => cases hmark
              | quoted spelling t => cases hmark
              | mark d =>
                  rw [eatMark?_mark] at hmark
                  split at hmark
                  case isFalse => cases hmark
                  case isTrue hd =>
                      injection hmark with hmark
                      exact ⟨ts, tail, rfl, by rw [hskip, hd], by rw [hmark]⟩

/-- What is left of tokens behind spaces reads as it did. -/
theorem Reads.skipSpaces {ts : List Token} (h : Reads ts) :
    Reads (Script.skipSpaces ts) := by
  induction ts with
  | nil => exact h
  | cons t ts ih =>
      by_cases hspace : t.isSpace = true
      · have hskip : Script.skipSpaces (t :: ts) = Script.skipSpaces ts :=
          List.dropWhile_cons_of_pos hspace
        rw [hskip]
        refine ih (h.tail ?_)
        cases t with
        | mark c =>
            unfold Token.isSpace at hspace
            simp only [Bool.or_eq_true, beq_iff_eq] at hspace
            rcases hspace with rfl | rfl <;> rfl
        | _ => rfl
      · have hskip : Script.skipSpaces (t :: ts) = t :: ts :=
          List.dropWhile_cons_of_neg hspace
        rw [hskip]
        exact h

/-- What is left of tokens behind a binding reads as it did. -/
theorem Reads.eatBinding? {ts rest : List Token} {name : Text} (h : Reads ts)
    (heat : Script.eatBinding? ts = some (name, rest)) : Reads rest := by
  obtain ⟨ts₁, ts₂, rfl, hskip, rfl⟩ := exists_word_of_eatBinding? heat
  have hspaced := (h.tail rfl).skipSpaces
  rw [hskip] at hspaced
  exact (hspaced.tail rfl).skipSpaces

-- =============================================================== creations

/-- The table that a call creates, from its beginning on. -/
def createdTable? (ts : List Token) : Option Text := do
  let ts ← eatKeyword? projectName ts
  let ts ← eatMark? '.' ts
  let (method, ts) ← eatWord? ts
  if !creationMethods.contains method then none
  else
    let ts ← eatMark? '(' (skipSpaces ts)
    keywordString? "table_id".toList ts

/-- A creation is a call that creates a table, behind a binding or without
one, and the call ends with the line. -/
theorem creation?_eq (ts : List Token) :
    creation? ts
      = (createdTable? (cutBinding ts).2).bind fun table =>
          if (Text.trimEnd (sourceOf (cutBinding ts).2)).getLast?
              ≠ some ')' then none
          else
            some ⟨(cutBinding ts).1, table,
              Text.trimEnd (sourceOf (cutBinding ts).2)⟩ := by
  unfold creation? createdTable?
  generalize cutBinding ts = cut
  obtain ⟨binding, ts⟩ := cut
  dsimp only
  cases eatKeyword? projectName ts with
  | none => rfl
  | some ts₁ =>
      simp only [Option.bind_eq_bind, Option.bind_some]
      cases eatMark? '.' ts₁ with
      | none => rfl
      | some ts₂ =>
          simp only [Option.bind_some]
          cases eatWord? ts₂ with
          | none => rfl
          | some found =>
              obtain ⟨method, ts₃⟩ := found
              simp only [Option.bind_some]
              split
              case isTrue => rfl
              case isFalse =>
                  cases eatMark? '(' (skipSpaces ts₃) with
                  | none => rfl
                  | some ts₄ =>
                      simp only [Option.bind_some]
                      split
                      case isTrue =>
                          cases keywordString? "table_id".toList ts₄ <;> rfl
                      case isFalse => rfl

theorem creation?_eq_some_iff {ts : List Token} {c : Creation} :
    creation? ts = some c
      ↔ c.binding = (cutBinding ts).1
        ∧ c.call = Text.trimEnd (sourceOf (cutBinding ts).2)
        ∧ c.call.getLast? = some ')'
        ∧ createdTable? (cutBinding ts).2 = some c.table := by
  rw [creation?_eq, Option.bind_eq_some_iff]
  constructor
  · rintro ⟨table, htable, h⟩
    split at h
    case isTrue => cases h
    case isFalse hlast =>
        injection h with h
        rw [← h]
        exact ⟨rfl, rfl, Decidable.not_not.1 hlast, htable⟩
  · rintro ⟨hbinding, hcall, hlast, htable⟩
    refine ⟨c.table, htable, ?_⟩
    rw [← hcall, ← hbinding, if_neg (by rw [hlast]; decide)]

/-- A call that creates a table begins with the name of the project. -/
theorem exists_project_of_createdTable? {ts : List Token} {table : Text}
    (h : createdTable? ts = some table) :
    ∃ method rest, ts = .word projectName :: .mark '.' :: .word method :: rest
      ∧ creationMethods.contains method = true := by
  unfold createdTable? at h
  obtain ⟨ts₁, hproject, h⟩ := Option.bind_eq_some_iff.1 h
  obtain ⟨ts₂, hpoint, h⟩ := Option.bind_eq_some_iff.1 h
  obtain ⟨⟨method, ts₃⟩, hword, h⟩ := Option.bind_eq_some_iff.1 h
  match ts, hproject with
  | .word v :: ts, hproject =>
      rw [eatKeyword?_word] at hproject
      split at hproject
      case isFalse => cases hproject
      case isTrue hv =>
          injection hproject with hproject
          subst hv hproject
          match ts, hpoint with
          | .mark d :: ts, hpoint =>
              rw [eatMark?_mark] at hpoint
              split at hpoint
              case isFalse => cases hpoint
              case isTrue hd =>
                  injection hpoint with hpoint
                  subst hd hpoint
                  match ts, hword with
                  | .word w :: ts, hword =>
                      injection hword with hword
                      injection hword with hmethod hrest
                      subst hmethod hrest
                      dsimp only at h
                      split at h
                      case isTrue => cases h
                      case isFalse hcontains =>
                          exact ⟨_, _, rfl, by simpa using hcontains⟩

/-- The call of a creation reads as the call it was. -/
theorem createdTable?_trimEnd {ts : List Token} {table : Text}
    (hreads : Reads ts) (h : createdTable? ts = some table) :
    createdTable? (tokens (Text.trimEnd (sourceOf ts))) = some table := by
  have htrailed : Trailed (tokens (Text.trimEnd (sourceOf ts))) ts := by
    have hline := trailed_trimEnd (sourceOf ts)
    rw [show tokens (sourceOf ts) = ts from hreads] at hline
    exact hline
  unfold createdTable? at h ⊢
  obtain ⟨ts₁', hproject, h⟩ := Option.bind_eq_some_iff.1 h
  obtain ⟨ts₂', hpoint, h⟩ := Option.bind_eq_some_iff.1 h
  obtain ⟨⟨method, ts₃'⟩, hword, h⟩ := Option.bind_eq_some_iff.1 h
  obtain ⟨ts₁, hproject, h₁⟩ := htrailed.eatKeyword? hproject
  obtain ⟨ts₂, hpoint, h₂⟩ := h₁.eatMark? (by decide) hpoint
  obtain ⟨ts₃, hword, h₃⟩ := h₂.eatWord? hword
  simp only [hproject, hpoint, hword, Option.bind_eq_bind, Option.bind_some]
  dsimp only at h
  split at h
  case isTrue => cases h
  case isFalse hcontains =>
      obtain ⟨ts₄', hopening, h⟩ := Option.bind_eq_some_iff.1 h
      obtain ⟨ts₄, hopening, h₄⟩ := h₃.skipSpaces.eatMark? (by decide) hopening
      rw [if_neg hcontains, hopening, Option.bind_some]
      exact h₄.keywordString? h

theorem Reads.cutBinding {ts : List Token} (h : Reads ts) :
    Reads (cutBinding ts).2 := by
  unfold Script.cutBinding
  cases hbinding : Script.eatBinding? ts with
  | none => exact h
  | some found => exact h.eatBinding? hbinding

/-- A creation that is written with a binding is the same creation. -/
theorem creation?_rebound {ts : List Token} {c : Creation} (hreads : Reads ts)
    (h : creation? ts = some c) {name : Text} (hname : IsWord name) :
    creation? (tokens (name ++ " = ".toList ++ c.call)) = some { c with
        binding := some name } := by
  obtain ⟨hbinding, hcall, hlast, htable⟩ := creation?_eq_some_iff.1 h
  have hread := createdTable?_trimEnd hreads.cutBinding htable
  rw [← hcall] at hread
  obtain ⟨method, rest, hbegins, -⟩ := exists_project_of_createdTable? hread
  have hcut : cutBinding (tokens (name ++ " = ".toList ++ c.call))
      = (some name, tokens c.call) := by
    unfold cutBinding
    rw [List.append_assoc, eatBinding?_tokens hname, hbegins]
    rfl
  have hkept : Text.trimEnd (sourceOf (tokens c.call)) = c.call := by
    rw [sourceOf_tokens, hcall, Text.trimEnd_trimEnd]
  rw [creation?_eq_some_iff, hcut]
  exact ⟨rfl, hkept.symm, hlast, hread⟩

/-- No line is both: a look-up creates no table. -/
theorem creation?_of_declaration? {ts : List Token} {name table : Text}
    (h : declaration? ts = some (name, table)) : creation? ts = none := by
  unfold declaration? at h
  obtain ⟨⟨name', ts₁⟩, hbinding, h⟩ := Option.bind_eq_some_iff.1 h
  obtain ⟨⟨table', ts₂⟩, hlookup, h⟩ := Option.bind_eq_some_iff.1 h
  cases hcreation : creation? ts with
  | none => rfl
  | some c =>
      obtain ⟨-, -, -, hcreated⟩ := creation?_eq_some_iff.1 hcreation
      unfold cutBinding at hcreated
      rw [hbinding] at hcreated
      obtain ⟨method, rest, rfl, hmethod⟩ :=
        exists_project_of_createdTable? hcreated
      -- the same word is the method that looks up and one that creates
      unfold eatLookup? at hlookup
      obtain ⟨ts₃, hproject, hlookup⟩ := Option.bind_eq_some_iff.1 hlookup
      obtain ⟨ts₄, hpoint, hlookup⟩ := Option.bind_eq_some_iff.1 hlookup
      obtain ⟨ts₅, hword, hlookup⟩ := Option.bind_eq_some_iff.1 hlookup
      rw [eatKeyword?_word, if_pos rfl] at hproject
      injection hproject with hproject
      subst hproject
      rw [eatMark?_mark, if_pos rfl] at hpoint
      injection hpoint with hpoint
      subst hpoint
      rw [eatKeyword?_word] at hword
      split at hword
      case isFalse => cases hword
      case isTrue hlookupMethod =>
          have hnone : creationMethods.contains lookupMethod = false := by
            decide
          rw [hlookupMethod, hnone] at hmethod
          cases hmethod

-- ===================================================== lines and their words

/-- The word that a line begins with. -/
theorem isWord_of_tokens {t w : Text} {ts : List Token}
    (h : tokens t = .word w :: ts) :
    IsWord w := by
  match t with
  | [] => cases tokens_nil.symm.trans h
  | c :: t =>
      by_cases hq : isQuote c = true
      · cases hread : readBody? c t with
        | some r =>
            rw [tokens_closed hq hread] at h
            cases (List.cons.inj h).1
        | none =>
            rw [tokens_open hq hread] at h
            cases (List.cons.inj h).1
      · by_cases hw : isWordStart c = true
        · rw [tokens_wordStart hw] at h
          injection (List.cons.inj h).1 with hword
          rw [← hword]
          exact ⟨hw, fun d hd => Text.isWordChar_of_mem_word hd⟩
        · rw [tokens_mark (by simpa using hq) (by simpa using hw)] at h
          cases (List.cons.inj h).1

/-- The characters of the call of a creation are those of its line. -/
theorem call_subset {l : Text} {c : Creation}
    (h : creation? (tokens l) = some c) :
    c.call ⊆ l := by
  obtain ⟨-, hcall, -⟩ := creation?_eq_some_iff.1 h
  have hsuffix : (cutBinding (tokens l)).2 <:+ tokens l := by
    unfold cutBinding
    cases heat : eatBinding? (tokens l) with
    | none => exact List.suffix_refl _
    | some found =>
        obtain ⟨name, rest⟩ := found
        obtain ⟨ts₁, ts₂, htokens, hskip, rfl⟩ :=
          exists_word_of_eatBinding? heat
        have hfirst : Token.mark '=' :: ts₂ <:+ ts₁ :=
          hskip ▸ List.dropWhile_suffix _
        have hrest : skipSpaces ts₂ <:+ ts₂ := List.dropWhile_suffix _
        rw [htokens]
        exact hrest.trans
          ((List.suffix_cons _ _).trans (hfirst.trans (List.suffix_cons _ _)))
  have hsource : sourceOf (cutBinding (tokens l)).2 ⊆ sourceOf (tokens l) := by
    intro d hd
    obtain ⟨t, ht, hd⟩ := List.mem_flatMap.1 hd
    exact List.mem_flatMap.2 ⟨t, hsuffix.subset ht, hd⟩
  rw [sourceOf_tokens] at hsource
  rw [hcall]
  exact List.Subset.trans (Text.trimEnd_subset _) hsource

/-- What a creation is bound to is a word, be it its own or the table's. -/
theorem isWord_binding {l : Text} {c : Creation}
    (h : creation? (tokens l) = some c) :
    IsWord (c.binding.getD (tableAlias c.table)) := by
  obtain ⟨hbinding, -⟩ := creation?_eq_some_iff.1 h
  rw [hbinding]
  unfold cutBinding
  cases heat : eatBinding? (tokens l) with
  | none => exact isWord_tableAlias c.table
  | some found =>
      obtain ⟨name, rest⟩ := found
      obtain ⟨ts₁, ts₂, htokens, -⟩ := exists_word_of_eatBinding? heat
      exact isWord_of_tokens htokens

/-- A line that begins with a word stands at the margin. -/
theorem exists_head_of_tokens {t w : Text} {ts : List Token}
    (h : tokens t = .word w :: ts) :
    ∃ c rest, t = c :: rest ∧ isBlank c = false := by
  have hw := isWord_of_tokens h
  have ht : t = w ++ sourceOf ts := by
    have hsource := sourceOf_tokens t
    rw [h] at hsource
    exact hsource.symm
  match w, hw with
  | c :: w, hw =>
      exact ⟨c, w ++ sourceOf ts, ht, hw.isBlank c List.mem_cons_self⟩

/-- A header opens with a word of its own and no equals sign behind it. -/
theorem header?_of_eatBinding? {ts rest : List Token} {name : Text}
    (h : eatBinding? ts = some (name, rest)) : header? ts = none := by
  obtain ⟨ts₁, ts₂, rfl, hskip, -⟩ := exists_word_of_eatBinding? h
  unfold header?
  rw [eatKeyword?_word]
  by_cases hname : name = "with".toList
  -- behind the name an equals sign follows, where a header has a word
  · rw [if_pos hname]
    cases ts₁ with
    | nil => rfl
    | cons t ts₁ =>
        by_cases hspace : t.isSpace = true
        · have hrest : skipSpaces ts₁ = .mark '=' :: ts₂ := by
            rw [← hskip]
            exact (List.dropWhile_cons_of_pos hspace).symm
          have heat : eatSpaces? (t :: ts₁) = some (.mark '=' :: ts₂) := by
            rw [← hrest]
            exact if_pos hspace
          simp only [Option.bind_eq_bind, Option.bind_some, heat]
          rfl
        · have heat : eatSpaces? (t :: ts₁) = none := if_neg hspace
          simp only [Option.bind_eq_bind, Option.bind_some, heat,
            Option.bind_none]
  · rw [if_neg hname]
    rfl

/-- Spaces are passed over up to what stands behind them. -/
theorem exists_spaces (ts : List Token) :
    ∃ spaces, ts = spaces ++ Script.skipSpaces ts
      ∧ ∀ t ∈ spaces, t.isSpace = true :=
  ⟨ts.takeWhile Token.isSpace, List.takeWhile_append_dropWhile.symm,
    fun _ ht => List.all_eq_true.1 List.all_takeWhile _ ht⟩

/-- A header opens a parenthesis, and no equals sign stands before it. -/
theorem exists_open_of_header? {ts : List Token} {header : Header}
    (h : header? ts = some header) :
    ∃ ts₁ ts₂, ts = .word "with".toList :: ts₁ ++ .mark '(' :: ts₂
      ∧ Token.mark '=' ∉ ts₁ := by
  unfold header? at h
  obtain ⟨rest, hwith, h⟩ := Option.bind_eq_some_iff.1 h
  obtain ⟨rest₁, hspaces, h⟩ := Option.bind_eq_some_iff.1 h
  obtain ⟨⟨opener, rest₂⟩, hword, h⟩ := Option.bind_eq_some_iff.1 h
  have hopening : ∃ rest₃, eatOpening? rest₂ = some rest₃ := by
    cases heat : eatOpening? rest₂ with
    | some rest₃ => exact ⟨rest₃, rfl⟩
    | none => simp [heat] at h
  obtain ⟨rest₃, hopening⟩ := hopening
  have hnot : ∀ spaces : List Token, (∀ t ∈ spaces, t.isSpace = true) →
      Token.mark '=' ∉ spaces := fun spaces hall hmem => by cases hall _ hmem
  match ts, hwith with
  | .word w :: ts, hwith =>
      rw [eatKeyword?_word] at hwith
      split at hwith
      case isFalse => cases hwith
      case isTrue hw =>
          injection hwith with hwith
          subst hw hwith
          match ts, hspaces with
          | t :: ts, hspaces =>
              by_cases hspace : t.isSpace = true
              · rw [eatSpaces?, if_pos hspace] at hspaces
                injection hspaces with hspaces
                obtain ⟨gap, hgap, hall⟩ := exists_spaces ts
                rw [hspaces] at hgap
                obtain ⟨mark, hmark, -⟩ := Option.map_eq_some_iff.1 hopening
                match rest₁, hword with
                | .word v :: rest₁, hword =>
                    injection hword with hword
                    injection hword with hv hrest
                    subst hv hrest
                    obtain ⟨gap', hgap', hall'⟩ := exists_spaces rest₁
                    match hskip : Script.skipSpaces rest₁, hmark with
                    | .mark d :: tail, hmark =>
                        rw [eatMark?_mark] at hmark
                        split at hmark
                        case isFalse => cases hmark
                        case isTrue hd =>
                            refine ⟨t :: (gap ++ .word v :: gap'),
                              tail, ?_, ?_⟩
                            · rw [hgap, hgap', hskip, hd]
                              simp
                            · rw [List.mem_cons, List.mem_append,
                                List.mem_cons]
                              rintro (heq | hin | heq | hin)
                              · rw [← heq] at hspace
                                cases hspace
                              · exact hnot gap hall hin
                              · cases heq
                              · exact hnot gap' hall' hin
              · rw [eatSpaces?, if_neg hspace] at hspaces
                cases hspaces

end GridScript.Script
