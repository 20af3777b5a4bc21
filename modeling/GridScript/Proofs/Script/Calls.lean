/-
Calls of the project, as they are read. A line that begins with a call of
one of the project's methods assigns no name and declares none, whatever
its arguments are: an equals sign that could assign stands behind an
opening parenthesis. Only the two methods that create a table create one,
and the table is the first that is named by its keyword.
-/
import GridScript.Proofs.Script.Phrases
import GridScript.Script.Block

namespace GridScript.Script

open Text (IsWord isBlank)

/-- A line that begins with a call of a method of the project. -/
def projectLine (method rest : Text) : Text :=
  projectName ++ '.' :: (method ++ '(' :: rest)

variable {method : Text}

theorem tokens_projectLine (hmethod : IsWord method) (rest : Text) :
    tokens (projectLine method rest)
      = .word projectName :: .mark '.' :: .word method :: .mark '('
        :: tokens rest := by
  unfold projectLine
  rw [tokens_wordPunctuation (by decide) (by decide),
    tokens_wordPunctuation hmethod (by decide)]

theorem eatBinding?_projectLine (hmethod : IsWord method) (rest : Text) :
    eatBinding? (tokens (projectLine method rest)) = none := by
  rw [tokens_projectLine hmethod]
  rfl

theorem declaration?_projectLine (hmethod : IsWord method) (rest : Text) :
    declaration? (tokens (projectLine method rest)) = none := by
  unfold declaration?
  rw [eatBinding?_projectLine hmethod]
  rfl

theorem header?_projectLine (hmethod : IsWord method) (rest : Text) :
    header? (tokens (projectLine method rest)) = none := by
  rw [tokens_projectLine hmethod]
  rfl

/-- Any other method creates no table. -/
theorem creation?_projectLine (hmethod : IsWord method)
    (h : creationMethods.contains method = false) (rest : Text) :
    creation? (tokens (projectLine method rest)) = none := by
  have hcut : cutBinding (tokens (projectLine method rest))
      = (none, tokens (projectLine method rest)) := by
    unfold cutBinding
    rw [eatBinding?_projectLine hmethod]
  unfold creation?
  rw [hcut]
  simp only [tokens_projectLine hmethod, eatKeyword?_word, if_pos,
    eatMark?_mark, eatWord?, Option.bind_eq_bind, Option.bind_some, h,
    Bool.not_false]

/-- A call that ends its line and names a table creates it. -/
theorem creation?_projectLine_of_creates (hmethod : IsWord method)
    (h : creationMethods.contains method = true) {rest table : Text}
    (hlast : (projectLine method rest).getLast? = some ')')
    (htable : keywordString? "table_id".toList (tokens rest) = some table) :
    creation? (tokens (projectLine method rest))
      = some ⟨none, table, projectLine method rest⟩ := by
  have hcut : cutBinding (tokens (projectLine method rest))
      = (none, tokens (projectLine method rest)) := by
    unfold cutBinding
    rw [eatBinding?_projectLine hmethod]
  have htrim : Text.trimEnd (sourceOf (tokens (projectLine method rest)))
      = projectLine method rest := by
    rw [sourceOf_tokens, Text.trimEnd_of_getLast hlast (by decide)]
  unfold creation?
  simp only [hcut, htrim]
  have hopen : skipSpaces (Token.mark '(' :: tokens rest)
      = .mark '(' :: tokens rest :=
    skipSpaces_mark (by decide) _
  simp only [tokens_projectLine hmethod, eatKeyword?_word, if_pos,
    eatMark?_mark, eatWord?, hopen, Option.bind_eq_bind, Option.bind_some, h,
    Bool.not_true, Bool.false_eq_true, if_false, hlast,
    ne_eq, not_true_eq_false, htable]
  rfl

/-- The tokens of a quoted argument with a quoted keyword behind it. -/
theorem tokens_quotedPair {key : Text} (hkey : IsWord key)
    (first value rest : Text) :
    tokens
      (quote first ++ (", ".toList ++ (key ++ '=' :: (quote value ++ rest))))
      = .quoted (quote first) first :: .mark ',' :: .mark ' ' :: .word key
          :: .mark '='
          :: .quoted (quote value) value :: tokens rest := by
  have hcomma : ∀ t : Text, ", ".toList ++ t = ',' :: ' ' :: t := fun _ => rfl
  rw [tokens_quote, hcomma, tokens_punctuation (by decide),
    tokens_punctuation (by decide), tokens_wordPunctuation hkey (by decide),
    tokens_quote]

/-- The keyword that stands behind one quoted argument. -/
theorem keywordString?_second {key : Text} (hkey : IsWord key)
    (first value rest : Text) :
    keywordString? key
        (tokens
          (quote
            first ++ (", ".toList ++ (key ++ '=' :: (quote value ++ rest)))))
      = some value := by
  rw [tokens_quotedPair hkey]
  simp only [keywordString?, if_pos]
  rfl

-- ========================================================= no assignments

/-- A character that is no blank is not trimmed. -/
theorem mem_trim {c : Char} {t : Text} (hc : isBlank c = false) (h : c ∈ t) :
    c ∈ Text.trim t := by
  have hstart : ∀ {t : Text}, c ∈ t → c ∈ Text.trimStart t := by
    intro t h
    induction t with
    | nil => cases h
    | cons d t ih =>
        unfold Text.trimStart at ih ⊢
        by_cases hd : isBlank d = true
        · rw [List.dropWhile_cons_of_pos hd]
          rcases List.mem_cons.1 h with rfl | h
          · rw [hc] at hd
            cases hd
          · exact ih h
        · rw [List.dropWhile_cons_of_neg hd]
          exact h
  obtain ⟨b, hb, ht⟩ := Text.exists_blank_end (Text.trimStart t)
  have hin := hstart h
  rw [ht] at hin
  rcases List.mem_append.1 hin with hin | hin
  · exact hin
  · rw [Text.allBlank_iff.1 hb c hin] at hc
    cases hc

/-- What is in a target stays in it when text is put in front. -/
theorem mem_of_map_before {c : Char} {t : Text} {cut : Option (Text × Text)}
    {lhs rhs : Text} (hcut : ∀ lhs' rhs', cut = some (lhs', rhs') → c ∈ lhs')
    (h : cut.map (before t) = some (lhs, rhs)) : c ∈ lhs := by
  obtain ⟨⟨lhs', rhs'⟩, hfound, heq⟩ := Option.map_eq_some_iff.1 h
  have hlhs : t ++ lhs' = lhs := congrArg Prod.fst heq
  rw [← hlhs]
  exact List.mem_append_right t (hcut lhs' rhs' hfound)

/-- A parenthesis in front of the equals sign stands in what is assigned
to. -/
theorem mem_of_cutAtAssign? {ts₁ ts₂ : List Token} {depth : Nat}
    {last : Option Char} {lhs rhs : Text} (hopen : Token.mark '=' ∉ ts₁)
    (h : cutAtAssign? depth last (ts₁ ++ .mark '(' :: ts₂) = some (lhs, rhs)) :
    '(' ∈ lhs := by
  induction ts₁ generalizing depth last lhs rhs with
  | nil =>
      rw [List.nil_append, cutAtAssign?, if_neg (by decide),
        if_neg (by simp)] at h
      obtain ⟨⟨lhs', rhs'⟩, -, heq⟩ := Option.map_eq_some_iff.1 h
      have hlhs : ['('] ++ lhs' = lhs := congrArg Prod.fst heq
      rw [← hlhs]
      exact List.mem_cons_self
  | cons t ts₁ ih =>
      rw [List.mem_cons, not_or] at hopen
      rw [List.cons_append] at h
      cases t with
      | word w => exact mem_of_map_before (fun _ _ => ih hopen.2) h
      | quoted spelling text =>
          exact mem_of_map_before (fun _ _ => ih hopen.2) h
      | mark c =>
          -- an equals sign outside of brackets would end the search
          have hc : ¬(c = '=' ∧ depth = 0) :=
            fun hboth => hopen.1 (by rw [hboth.1])
          by_cases hquote : isQuote c = true
          · rw [cutAtAssign?, if_pos hquote] at h
            cases h
          · rw [cutAtAssign?, if_neg hquote, if_neg hc] at h
            exact mem_of_map_before (fun _ _ => ih hopen.2) h

/-- A line with a parenthesis in front of any equals sign assigns
nothing. -/
theorem assignment?_of_open {l : Text} {ts₁ ts₂ : List Token}
    (hopen : Token.mark '=' ∉ ts₁) (h : tokens l = ts₁ ++ .mark '(' :: ts₂) :
    assignment? l = none := by
  unfold assignment?
  rw [h]
  cases hcut : cutAtAssign? 0 none (ts₁ ++ .mark '(' :: ts₂) with
  | none => rfl
  | some parts =>
      obtain ⟨lhs, rhs⟩ := parts
      have htarget : isTarget (Text.trim lhs) = false := by
        have hmem := mem_trim (by decide) (mem_of_cutAtAssign? hopen hcut)
        unfold isTarget
        rw [Bool.and_eq_false_iff]
        right
        rw [List.all_eq_false]
        exact ⟨'(', hmem, by decide⟩
      simp only [Option.bind_eq_bind, Option.bind_some, htarget,
        Bool.false_and, Bool.false_eq_true, if_false]

/-- A call of the project is not assigned to. -/
theorem assignment?_projectLine (hmethod : IsWord method) (rest : Text) :
    assignment? (projectLine method rest) = none := by
  have hopen : Token.mark '='
      ∉ [Token.word projectName, .mark '.', .word method] := by simp
  exact assignment?_of_open hopen (tokens_projectLine hmethod rest)

theorem marginTarget?_projectLine (hmethod : IsWord method) (rest : Text) :
    marginTarget? (projectLine method rest) = none := by
  unfold marginTarget?
  rw [assignment?_projectLine hmethod]
  split <;> rfl

end GridScript.Script
