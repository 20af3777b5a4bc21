/-
What is written as JSON is read as what it was. The printer spreads a value
over lines and the reader passes over white space, so nothing depends on
how deep the value stands; a string is escaped character by character, and
each escape is one unit to the reader (`readUnits?_escape`).

A number is kept as it is spelled, and any text can be its spelling. It is
read again if the spelling is one of a number (`isLegible`); where it ends is
told from what comes behind it, which is white space or a comma here.

The reader goes by a budget. An item or a member takes a step, and what is
inside it another, while each of them is written with at least one
character of its own; so twice the length of the text is enough.
-/
import GridScript.Json.Printer
import GridScript.Proofs.Json.Numbers

namespace GridScript.Json

-- =============================================================== strings

/-- The unit that a character is read as where it was escaped. Control
characters without a short form are read as numbers. -/
def unitOf (c : Char) : StringUnit :=
  if c.toNat < 0x20 ∧ c ≠ '\n' ∧ c ≠ '\r' ∧ c ≠ '\t' ∧ c ≠ '\x08'
      ∧ c ≠ '\x0c' then
    .code c.toNat
  else .char c

section Units

variable {c e : Char} {t rest : Text} {us : List StringUnit}

theorem readUnits?_short (he : shortEscape? e = some c)
    (h : readUnits? t = some (us, rest)) :
    readUnits? ('\\' :: e :: t) = some (.char c :: us, rest) := by
  have hletter : e ≠ 'u' := by
    rintro rfl
    cases he
  rw [readUnits?.eq_4 e t fun _ _ _ _ _ hu _ => hletter hu, he, h]
  rfl

/-- One of the four digits of a number. -/
def hexDigit (n place : Nat) : Char := (Number.hexPadded 4 n).getD place '0'

/-- Four digits are read as the number that they were written for. -/
theorem hexPadded_four : ∀ n < 0x20,
    Number.hexPadded 4 n
      = [hexDigit n 0, hexDigit n 1, hexDigit n 2, hexDigit n 3]
      ∧ hex4? (hexDigit n 0) (hexDigit n 1) (hexDigit n 2) (hexDigit n 3)
        = some n := by
  decide

theorem readUnits?_code {n : Nat} (hn : n < 0x20)
    (h : readUnits? t = some (us, rest)) :
    readUnits? ("\\u".toList ++ Number.hexPadded 4 n ++ t)
      = some (.code n :: us, rest) := by
  obtain ⟨hdigits, hread⟩ := hexPadded_four n hn
  rw [hdigits]
  show readUnits?
      ('\\' :: 'u' :: hexDigit n 0 :: hexDigit n 1 :: hexDigit n 2
        :: hexDigit n 3 :: t) = _
  rw [readUnits?.eq_3, hread, h]
  rfl

theorem readUnits?_plain (hquote : c ≠ '"') (hslash : c ≠ '\\')
    (hcontrol : ¬c.toNat < 0x20) (h : readUnits? t = some (us, rest)) :
    readUnits? (c :: t) = some (.char c :: us, rest) := by
  rw [readUnits?.eq_5 c t hquote
    (fun _ _ _ _ _ hc _ => hslash hc) fun _ _ hc _ => hslash hc,
      if_neg (by simp [hslash, hcontrol]), h]
  rfl

/-- An escaped character is one unit. -/
theorem readUnits?_escape (c : Char) (h : readUnits? t = some (us, rest)) :
    readUnits? (escape c ++ t) = some (unitOf c :: us, rest) := by
  unfold escape
  iterate 7
    split
    next hc =>
        subst hc
        exact readUnits?_short rfl h
  rename_i hquote hslash hfeed hreturn htab hback hform
  unfold unitOf
  by_cases hcontrol : c.toNat < 0x20
  · rw [if_pos hcontrol, if_pos ⟨hcontrol, hfeed, hreturn, htab, hback, hform⟩]
    exact readUnits?_code hcontrol h
  · rw [if_neg hcontrol, if_neg fun hall => hcontrol hall.1]
    exact readUnits?_plain hquote hslash hcontrol h

end Units

/-- A string ends at its closing quote, whatever is in it. -/
theorem readUnits?_quoted (t rest : Text) :
    readUnits? (t.flatMap escape ++ '"' :: rest)
      = some (t.map unitOf, rest) := by
  induction t with
  | nil => exact readUnits?.eq_2 rest
  | cons c t ih =>
      rw [List.flatMap_cons, List.append_assoc]
      exact readUnits?_escape c ih

/-- A small number is no half of a pair, whatever comes behind it. -/
theorem decodeUnits?_code {n : Nat} (h : n < 0x20) (us : List StringUnit) :
    decodeUnits? (.code n :: us)
      = (decodeUnits? us).map (Char.ofNat n :: ·) := by
  have hhigh : isHigh n = false := by simp [isHigh]; omega
  have hlow : isLow n = false := by simp [isLow]; omega
  rcases us with - | ⟨c | low, us⟩
  · rw [decodeUnits?.eq_4 n [] fun _ _ heq => (by cases heq), hhigh, hlow]
    rfl
  · rw [decodeUnits?.eq_4 n _ fun _ _ heq => (by cases heq), hhigh, hlow]
    rfl
  · rw [decodeUnits?.eq_3, hhigh, hlow]
    rfl

/-- What was escaped stands for the characters that it was made of. -/
theorem decodeUnits?_map_unitOf (t : Text) :
    decodeUnits? (t.map unitOf) = some t := by
  induction t with
  | nil => rfl
  | cons c t ih =>
      rw [List.map_cons, unitOf]
      split
      next hcontrol =>
          rw [decodeUnits?_code hcontrol.1, ih, Option.map_some,
            Char.ofNat_toNat]
      next => rw [decodeUnits?.eq_2, ih, Option.map_some]

/-- A string is read back, and what follows it is left. -/
theorem readUnits?_quote (t rest : Text) :
    ∃ us, readUnits? (t.flatMap escape ++ '"' :: rest) = some (us, rest)
      ∧ decodeUnits? us = some t :=
  ⟨t.map unitOf, readUnits?_quoted t rest, decodeUnits?_map_unitOf t⟩

-- ================================================================ values

mutual

/-- Is every number in the value spelled as one, and nothing in it
unreadable? -/
def isLegible : Json → Bool
  | .null => true
  | .bool _ => true
  | .text _ => true
  | .number spelling => readNumber? spelling == some (spelling, [])
  | .unreadable => false
  | .array items => areLegible items
  | .object members => membersLegible members

/-- All of the items are legible. -/
def areLegible : List Json → Bool
  | [] => true
  | j :: js => isLegible j && areLegible js

/-- The values of all members are legible. -/
def membersLegible : List (Text × Json) → Bool
  | [] => true
  | (_, j) :: ms => isLegible j && membersLegible ms

end

-- ============================================================ white space

theorem isSpace_of_mem_newline {level : Nat} {c : Char}
    (h : c ∈ newline level) :
    isSpace c = true := by
  rcases List.mem_cons.1 h with rfl | h
  · rfl
  · rw [List.eq_of_mem_replicate h]
    rfl

theorem skipSpace_newline (level : Nat) (t : Text) :
    skipSpace (newline level ++ t) = skipSpace t := by
  unfold skipSpace
  exact List.dropWhile_append_of_pos fun c hc => isSpace_of_mem_newline hc

theorem skipSpace_cons {c : Char} (h : isSpace c = false) (t : Text) :
    skipSpace (c :: t) = c :: t := by
  unfold skipSpace
  rw [List.dropWhile_cons_of_neg (by rw [h]; decide)]

theorem skipSpace_skipSpace (t : Text) :
    skipSpace (skipSpace t) = skipSpace t := by
  cases hskipped : skipSpace t with
  | nil => rfl
  | cons c rest =>
      have hhead := List.head?_dropWhile_not isSpace t
      rw [show t.dropWhile isSpace = c :: rest from hskipped] at hhead
      exact skipSpace_cons hhead rest

theorem readValue?_skipSpace (budget : Nat) (t : Text) :
    readValue? budget (skipSpace t) = readValue? budget t := by
  cases budget with
  | zero => rfl
  | succ budget =>
      unfold readValue?
      rw [skipSpace_skipSpace]

theorem readItems?_skipSpace (budget : Nat) (t : Text) :
    readItems? budget (skipSpace t) = readItems? budget t := by
  cases budget with
  | zero => rfl
  | succ budget =>
      unfold readItems?
      rw [readValue?_skipSpace]

theorem readMembers?_skipSpace (budget : Nat) (t : Text) :
    readMembers? budget (skipSpace t) = readMembers? budget t := by
  cases budget with
  | zero => rfl
  | succ budget =>
      unfold readMembers?
      rw [skipSpace_skipSpace]

/-- White space is passed over in front of a value. -/
theorem readValue?_newline (budget level : Nat) (t : Text) :
    readValue? budget (newline level ++ t) = readValue? budget t := by
  rw [← readValue?_skipSpace, skipSpace_newline, readValue?_skipSpace]

-- ================================================================ steps

/-- How the values that are no numbers begin. -/
def otherMarks : List Char := ['[', ']', '{', '"', 'n', 't', 'f']

theorem all_otherMarks :
    (otherMarks.all fun c => !(c == '-' || c.isDigit)) = true := by
  decide

/-- A number begins with no mark of another value. -/
theorem head_of_number {c : Char} (h : c = '-' ∨ c.isDigit = true) :
    isSpace c = false ∧ ∀ d ∈ otherMarks, c ≠ d := by
  refine ⟨?_, ?_⟩
  · rw [Bool.eq_false_iff]
    intro hspace
    simp only [isSpace, Bool.or_eq_true, beq_iff_eq] at hspace
    rcases hspace with ((rfl | rfl) | rfl) | rfl <;> revert h <;> decide
  · rintro d hd rfl
    have hmark : (!(c == '-' || c.isDigit)) = true :=
      List.all_eq_true.1 all_otherMarks c hd
    rcases h with rfl | hdigit
    · cases hmark
    · rw [hdigit, Bool.or_true] at hmark
      cases hmark

section Steps

variable {budget : Nat} {t u v rest : Text} {us : List StringUnit} {c : Char}
  {name : Text}
  {j : Json} {js : List Json} {ms : List (Option Text × Json)}

theorem readValue?_text (h : readUnits? t = some (us, rest))
    (hname : decodeUnits? us = some name) :
    readValue? (budget + 1) ('"' :: t) = some (.text name, rest) := by
  unfold readValue?
  rw [skipSpace_cons rfl]
  simp only [h, Option.map_some, ofUnits, hname]

/-- An array is not closed at once if something else comes first. -/
theorem readValue?_array (hfirst : skipSpace t = c :: u) (hopen : c ≠ ']')
    (h : readItems? budget t = some (js, rest)) :
    readValue? (budget + 1) ('[' :: t) = some (.array js, rest) := by
  rw [← readItems?_skipSpace, hfirst] at h
  unfold readValue?
  rw [skipSpace_cons rfl]
  simp only [hfirst]
  split
  next heq =>
      injection heq with heq
      exact absurd heq hopen
  next => rw [h, Option.map_some]

theorem readValue?_object (hfirst : skipSpace t = c :: u) (hopen : c ≠ '}')
    (h : readMembers? budget t = some (ms, rest)) :
    readValue? (budget + 1) ('{' :: t) = some (ofMembers ms, rest) := by
  rw [← readMembers?_skipSpace, hfirst] at h
  unfold readValue?
  rw [skipSpace_cons rfl]
  simp only [hfirst]
  split
  next heq =>
      injection heq with heq
      exact absurd heq hopen
  next => rw [h, Option.map_some]

theorem readValue?_number {spelling : Text}
    (h : readNumber? spelling = some (spelling, []))
    (hrest : continuesNumber rest = false) :
    readValue? (budget + 1) (spelling ++ rest)
      = some (.number spelling, rest) := by
  have hread := readNumber?_append hrest h
  obtain ⟨c, s, rfl, hc⟩ := exists_head_of_readNumber? h
  obtain ⟨hspace, hmarks⟩ := head_of_number hc
  have hname : ∀ (name : Text) (d : Char), d ∈ otherMarks →
      Text.afterStart? (d :: name) (c :: (s ++ rest)) = none :=
    fun name d hd => if_neg (Ne.symm (hmarks d hd))
  rw [List.cons_append] at hread ⊢
  unfold readValue?
  rw [skipSpace_cons hspace]
  split
  next heq => cases heq
  next heq => injection heq with heq; exact absurd heq (hmarks _ (by decide))
  next heq => injection heq with heq; exact absurd heq (hmarks _ (by decide))
  next heq => injection heq with heq; exact absurd heq (hmarks _ (by decide))
  next =>
      -- none of the words begins as a number does
      have hnull : Text.afterStart? "null".toList (c :: (s ++ rest)) = none :=
        hname _ _ (by decide)
      have htrue : Text.afterStart? "true".toList (c :: (s ++ rest)) = none :=
        hname _ _ (by decide)
      have hfalse : Text.afterStart? "false".toList (c :: (s ++ rest))
          = none := hname _ _ (by decide)
      simp only [hnull, htrue, hfalse, hread, Option.map_some, List.nil_append]

theorem readItems?_last (hvalue : readValue? budget t = some (j, u))
    (hclose : skipSpace u = ']' :: rest) :
    readItems? (budget + 1) t = some ([j], rest) := by
  unfold readItems?
  rw [hvalue, Option.bind_eq_bind, Option.bind_some]
  simp only [hclose]
  rfl

theorem readItems?_more (hvalue : readValue? budget t = some (j, u))
    (hcomma : skipSpace u = ',' :: v)
    (h : readItems? budget v = some (js, rest)) :
    readItems? (budget + 1) t = some (j :: js, rest) := by
  unfold readItems?
  rw [hvalue, Option.bind_eq_bind, Option.bind_some]
  simp only [hcomma, h]
  rfl

/-- A member is a name, a colon and a value. -/
theorem readMembers?_last (hquote : skipSpace t = '"' :: u) {a b : Text}
    (hname : readUnits? u = some (us, ':' :: a))
    (hvalue : readValue? budget a = some (j, b))
    (hclose : skipSpace b = '}' :: rest) :
    readMembers? (budget + 1) t = some ([(decodeUnits? us, j)], rest) := by
  unfold readMembers?
  simp only [hquote, hname, Option.bind_eq_bind, Option.bind_some,
    skipSpace_cons (c := ':') rfl, hvalue, hclose]
  rfl

theorem readMembers?_more (hquote : skipSpace t = '"' :: u) {a b : Text}
    (hname : readUnits? u = some (us, ':' :: a))
    (hvalue : readValue? budget a = some (j, b))
    (hcomma : skipSpace b = ',' :: v)
    (h : readMembers? budget v = some (ms, rest)) :
    readMembers? (budget + 1) t = some ((decodeUnits? us, j) :: ms, rest) := by
  unfold readMembers?
  simp only [hquote, hname, Option.bind_eq_bind, Option.bind_some,
    skipSpace_cons (c := ':') rfl, hvalue, hcomma, h]
  rfl

end Steps

theorem mapM_named {f : Option Text × Json → Option (Text × Json)}
    (hf : ∀ name j, f (some name, j) = some (name, j))
    (ms : List (Text × Json)) :
    (ms.map fun m => (some m.1, m.2)).mapM f = some ms := by
  induction ms with
  | nil => rfl
  | cons m ms ih =>
      rw [List.map_cons, List.mapM_cons, ih, hf]
      rfl

theorem ofMembers_named (ms : List (Text × Json)) :
    ofMembers (ms.map fun m => (some m.1, m.2)) = .object ms := by
  unfold ofMembers
  rw [mapM_named fun _ _ => rfl]

-- ============================================================ round trip

/-- A value begins with a character that is no white space and closes
nothing. -/
theorem exists_spread (level : Nat) {j : Json} (h : j.isLegible = true) :
    ∃ c t, spread level j = c :: t ∧ isSpace c = false ∧ c ≠ ']' := by
  unfold isLegible at h
  split at h
  next => exact ⟨_, _, rfl, by decide, by decide⟩
  next b => cases b <;> exact ⟨_, _, rfl, by decide, by decide⟩
  next => exact ⟨_, _, rfl, by decide, by decide⟩
  next spelling =>
      obtain ⟨c, t, rfl, hc⟩ := exists_head_of_readNumber? (beq_iff_eq.1 h)
      exact ⟨c, t, rfl, (head_of_number hc).1,
        (head_of_number hc).2 _ (by decide)⟩
  next => cases h
  next items => cases items <;> exact ⟨_, _, rfl, by decide, by decide⟩
  next members => cases members <;> exact ⟨_, _, rfl, by decide, by decide⟩

theorem spreadItems_cons_cons (level : Nat) (j next : Json) (js : List Json) :
    spreadItems level (j :: next :: js)
      = newline level ++ spread level j
        ++ ',' :: spreadItems level (next :: js) := rfl

theorem spreadMembers_cons_cons (level : Nat) (name : Text) (j : Json)
    (next : Text × Json) (ms : List (Text × Json)) :
    spreadMembers level ((name, j) :: next :: ms)
      = newline level ++ quote name ++ ": ".toList ++ spread level j
        ++ ',' :: spreadMembers level (next :: ms) := rfl

/-- The first item comes first. -/
theorem skipSpace_spreadItems (level : Nat) {js : List Json} (hne : js ≠ [])
    (h : areLegible js = true) (t : Text) :
    ∃ c u, skipSpace (spreadItems level js ++ t) = c :: u ∧ c ≠ ']' := by
  obtain ⟨j, js, rfl⟩ := List.exists_cons_of_ne_nil hne
  rw [areLegible, Bool.and_eq_true] at h
  obtain ⟨c, u, hspread, hspace, hopen⟩ := exists_spread level h.1
  obtain ⟨v, hv⟩ : ∃ v,
      spreadItems level (j :: js) = newline level ++ spread level j ++ v := by
    cases js with
    | nil => exact ⟨[], (List.append_nil _).symm⟩
    | cons next js => exact ⟨_, rfl⟩
  refine ⟨c, u ++ v ++ t, ?_, hopen⟩
  rw [hv, hspread, List.append_assoc, List.append_assoc, skipSpace_newline,
    List.append_assoc]
  exact skipSpace_cons hspace _

/-- The name of the first member comes first. -/
theorem skipSpace_spreadMembers (level : Nat) {ms : List (Text × Json)}
    (hne : ms ≠ []) (t : Text) :
    ∃ u, skipSpace (spreadMembers level ms ++ t) = '"' :: u := by
  obtain ⟨⟨name, j⟩, ms, rfl⟩ := List.exists_cons_of_ne_nil hne
  obtain ⟨v, hv⟩ : ∃ v, spreadMembers level ((name, j) :: ms)
      = newline level ++ quote name ++ v := by
    cases ms with
    | nil => exact ⟨_, List.append_assoc _ _ _⟩
    | cons next ms =>
        exact ⟨_, by
          rw [spreadMembers_cons_cons, List.append_assoc, List.append_assoc]⟩
  refine ⟨name.flatMap escape ++ ['"'] ++ v ++ t, ?_⟩
  rw [hv, List.append_assoc, List.append_assoc, skipSpace_newline,
    quote, ← List.append_assoc]
  exact skipSpace_cons rfl _

/-- White space is passed over in front of a value. -/
theorem readValue?_space (budget : Nat) (t : Text) :
    readValue? budget (' ' :: t) = readValue? budget t := by
  rw [← readValue?_skipSpace, skipSpace,
    List.dropWhile_cons_of_pos rfl, ← skipSpace, readValue?_skipSpace]

mutual

/-- A value is read back from its text, and what follows it is left. -/
theorem readValue?_spread (j : Json) (h : j.isLegible = true) (level : Nat)
    (rest : Text) (hrest : continuesNumber rest = false) (budget : Nat)
    (hbudget : 2 * (spread level j).length ≤ budget) :
    readValue? budget (spread level j ++ rest) = some (j, rest) := by
  obtain ⟨c, t, hspread, -, -⟩ := exists_spread level h
  -- the budget is not used up, for a value has a first character
  obtain ⟨budget, rfl⟩ : ∃ b, budget = b + 1 := by
    rw [hspread, List.length_cons] at hbudget
    exact ⟨budget - 1, by omega⟩
  clear hspread
  cases j with
  | null => rfl
  | bool b => cases b <;> rfl
  | text t =>
      obtain ⟨us, hread, hdecoded⟩ := readUnits?_quote t rest
      show readValue? (budget + 1) (quote t ++ rest) = _
      rw [quote, List.append_assoc]
      exact readValue?_text hread hdecoded
  | number spelling => exact readValue?_number (beq_iff_eq.1 h) hrest
  | unreadable => cases h
  | array items =>
      cases items with
      | nil => rfl
      | cons item items =>
        have hspread : spread level (.array (item :: items)) ++ rest
            = '['
              :: (spreadItems (level + 1) (item :: items)
                ++ (newline level ++ ']' :: rest)) := by
          simp only [spread, List.cons_append, List.append_assoc,
            List.nil_append]
        have hlength : 2 * (spreadItems (level + 1) (item :: items)).length
            ≤ budget := by
          have hall := congrArg List.length hspread
          simp only [List.length_append, List.length_cons] at hall
          omega
        obtain ⟨c, u, hfirst, hopen⟩ :=
          skipSpace_spreadItems (level + 1) (by simp) h
          (newline level ++ ']' :: rest)
        rw [hspread]
        exact readValue?_array hfirst hopen
          (readItems?_spreadItems (item :: items) (by simp) h
            (level + 1) level rest budget hlength)
  | object members =>
      cases members with
      | nil => rfl
      | cons member members =>
        have hspread : spread level (.object (member :: members)) ++ rest
            = '{'
              :: (spreadMembers (level + 1) (member :: members)
                ++ (newline level ++ '}' :: rest)) := by
          simp only [spread, List.cons_append, List.append_assoc,
            List.nil_append]
        have hlength : 2
            * (spreadMembers (level + 1) (member :: members)).length
              ≤ budget := by
          have hall := congrArg List.length hspread
          simp only [List.length_append, List.length_cons] at hall
          omega
        obtain ⟨u, hfirst⟩ :=
          skipSpace_spreadMembers (level + 1) (List.cons_ne_nil member members)
          (newline level ++ '}' :: rest)
        rw [hspread, readValue?_object hfirst (by decide)
          (readMembers?_spreadMembers (member :: members) (by simp) h
            (level + 1) level rest budget
            hlength), ofMembers_named]
termination_by sizeOf j

/-- Items are read up to the bracket that closes them. -/
theorem readItems?_spreadItems (js : List Json) (hne : js ≠ [])
    (h : areLegible js = true) (level close : Nat) (rest : Text) (budget : Nat)
    (hbudget : 2 * (spreadItems level js).length ≤ budget) :
    readItems? budget (spreadItems level js ++ (newline close ++ ']' :: rest))
      = some (js, rest) := by
  cases js with
  | nil => exact absurd rfl hne
  | cons j js =>
      rw [areLegible, Bool.and_eq_true] at h
      cases js with
      | nil =>
          -- behind the last item the bracket closes
          rw [spreadItems] at hbudget ⊢
          simp only [newline, List.length_append, List.length_cons] at hbudget
          obtain ⟨budget, rfl⟩ : ∃ b, budget = b + 1 := ⟨budget - 1, by omega⟩
          have hvalue :=
            readValue?_spread j h.1 level
              (newline close ++ ']' :: rest) rfl budget (by omega)
          rw [List.append_assoc]
          refine readItems?_last ((readValue?_newline _ _ _).trans hvalue) ?_
          rw [skipSpace_newline, skipSpace_cons rfl]
      | cons next js =>
          -- behind a comma the next item is read
          rw [spreadItems_cons_cons] at hbudget ⊢
          simp only [newline, List.length_append, List.length_cons] at hbudget
          obtain ⟨budget, rfl⟩ : ∃ b, budget = b + 1 := ⟨budget - 1, by omega⟩
          have hrest :=
            readItems?_spreadItems (next :: js) (by simp) h.2 level close
              rest budget (by omega)
          have hvalue :=
            readValue?_spread j h.1 level
              (',' :: (spreadItems level (next :: js)
                ++ (newline close ++ ']' :: rest))) rfl budget (by omega)
          rw [List.append_assoc, List.append_assoc, List.cons_append]
          exact readItems?_more ((readValue?_newline _ _ _).trans hvalue)
            (skipSpace_cons rfl _) hrest
termination_by sizeOf js

/-- Members are read up to the brace that closes them. -/
theorem readMembers?_spreadMembers (ms : List (Text × Json)) (hne : ms ≠ [])
    (h : membersLegible ms = true) (level close : Nat) (rest : Text)
    (budget : Nat) (hbudget : 2 * (spreadMembers level ms).length ≤ budget) :
    readMembers? budget
      (spreadMembers level ms ++ (newline close ++ '}' :: rest))
      = some (ms.map fun m => (some m.1, m.2), rest) := by
  cases ms with
  | nil => exact absurd rfl hne
  | cons m ms =>
      obtain ⟨⟨name, j⟩, rfl⟩ : ∃ named, m = named := ⟨m, rfl⟩
      rw [membersLegible, Bool.and_eq_true] at h
      have hquote : ∀ t, skipSpace (newline level ++ (quote name ++ t))
          = '"' :: (name.flatMap escape ++ '"' :: t) := by
        intro t
        rw [skipSpace_newline, quote, List.append_assoc]
        rfl
      cases ms with
      | nil =>
          rw [spreadMembers] at hbudget ⊢
          simp only [newline, List.length_append, List.length_cons] at hbudget
          obtain ⟨budget, rfl⟩ : ∃ b, budget = b + 1 := ⟨budget - 1, by omega⟩
          have hvalue :=
            readValue?_spread j h.1 level
              (newline close ++ '}' :: rest) rfl budget (by omega)
          obtain ⟨us, hname, hdecoded⟩ := readUnits?_quote name
            (": ".toList ++ (spread level j ++ (newline close ++ '}' :: rest)))
          simp only [List.append_assoc]
          rw [readMembers?_last (hquote _) hname
            ((readValue?_space _ _).trans hvalue), hdecoded]
          · rfl
          · rw [skipSpace_newline, skipSpace_cons rfl]
      | cons next ms =>
          rw [spreadMembers_cons_cons] at hbudget ⊢
          simp only [newline, List.length_append, List.length_cons] at hbudget
          obtain ⟨budget, rfl⟩ : ∃ b, budget = b + 1 := ⟨budget - 1, by omega⟩
          have hrest :=
            readMembers?_spreadMembers (next :: ms) (by simp) h.2 level close
              rest budget (by omega)
          have hvalue :=
            readValue?_spread j h.1 level
              (',' :: (spreadMembers level (next :: ms)
                ++ (newline close ++ '}' :: rest))) rfl budget (by omega)
          obtain ⟨us, hname, hdecoded⟩ :=
            readUnits?_quote name (": ".toList ++ (spread level j
            ++ ','
              :: (spreadMembers level (next :: ms)
                ++ (newline close ++ '}' :: rest))))
          simp only [List.append_assoc, List.cons_append]
          rw [readMembers?_more (hquote _) hname
            ((readValue?_space _ _).trans hvalue)
            (skipSpace_cons rfl _) hrest, hdecoded]
          rfl
termination_by sizeOf ms
decreasing_by
  all_goals
    subst_vars
    simp only [List.cons.sizeOf_spec, Prod.mk.sizeOf_spec]
    omega

end

/-- What was written over lines is read back, also with white space behind
it. -/
theorem read?_pretty {j : Json} (h : j.isLegible = true) {space : Text}
    (hspace : skipSpace space = []) :
    read? (j.pretty ++ space) = some j := by
  have hends : continuesNumber space = false := by
    cases space with
    | nil => rfl
    | cons c space =>
        have hc : isSpace c = true := by
          rw [skipSpace, List.dropWhile_cons] at hspace
          split at hspace
          case isTrue hc => exact hc
          case isFalse => cases hspace
        simp only [isSpace, Bool.or_eq_true, beq_iff_eq] at hc
        rcases hc with ((rfl | rfl) | rfl) | rfl <;> rfl
  unfold read? pretty
  rw [readValue?_spread j h 0 space hends _
    (by rw [List.length_append]; omega), Option.bind_eq_bind, Option.bind_some]
  simp only [hspace]
  rfl

end GridScript.Json
