/-
Literals can be told apart. A list of literals is read from the left: where
one of them ends is known from what may follow it, a comma or a bracket, and
what it stands for is known from its own characters. So two lists with one
text have the same items, at each level of a grid, and a row or a grid shows
its whole shape.

# Why what follows is carried along

Texts hold commas and brackets of their own, so a literal cannot be cut off
at the next comma. A quoted text is read up to its closing quote whatever
follows it; every other literal has no comma and no bracket in it and ends
at the first one. `Telling` says both at once, and it passes from the
literals of the items to that of their list (`Telling.list`).
-/
import GridScript.Proofs.Number.Plain
import GridScript.Proofs.Value.Date
import Mathlib.Data.List.Forall2

namespace GridScript

-- ============================================================= same values

/-- Equal values, where the sign of a zero does not count, nor do whole days
in a time. -/
def Value.Same : Value → Value → Prop
  | .number x, .number y => x = y ∨ x.isZero = true ∧ y.isZero = true
  | .time s, .time t =>
      s % TimeOfDay.secondsPerDay = t % TimeOfDay.secondsPerDay
  | v, w => v = w

namespace Literal

-- ================================================================== lists

/-- Can the text follow an item of a list? -/
def Follows (t : Text) : Prop := ∀ c ∈ t.head?, c = ',' ∨ c = ']'

/-- A notation by which things can be told apart, whatever follows them in a
list. -/
structure Telling {α : Type} (f : α → Text) (Same : α → α → Prop) : Prop where
  /-- It is never empty and begins with no closing bracket. -/
  opens : ∀ x, ∃ c t, f x = c :: t ∧ c ≠ ']'
  /-- What is the same is written the same. -/
  written : ∀ {x y}, Same x y → f x = f y
  /-- What is written is the same, and ends at the same place. -/
  read : ∀ {x y r s}, Follows r → Follows s → f x ++ r = f y ++ s →
    Same x y ∧ r = s

section Lists

variable {α : Type} {f : α → Text} {Same : α → α → Prop}

theorem Telling.eq_iff (h : Telling f Same) {x y : α} :
    f x = f y ↔ Same x y := by
  have hnil : Follows [] := by rintro c ⟨⟩
  refine ⟨fun heq => (h.read hnil hnil ?_).1, h.written⟩
  rw [heq]

/-- The items behind the first one, and what closes the list. -/
def behind (f : α → Text) (xs : List α) (r : Text) : Text :=
  xs.flatMap (fun x => ", ".toList ++ f x) ++ ']' :: r

theorem follows_behind (f : α → Text) (xs : List α) (r : Text) :
    Follows (behind f xs r) := by
  cases xs with
  | nil =>
      rintro c ⟨⟩
      exact Or.inr rfl
  | cons x xs =>
      rintro c ⟨⟩
      exact Or.inl rfl

theorem behind_cons (x : α) (xs : List α) (r : Text) :
    behind f (x :: xs) r = ", ".toList ++ (f x ++ behind f xs r) := by
  simp only [behind, List.flatMap_cons, List.append_assoc]

theorem joinWith_cons_append (x : α) (xs : List α) (r : Text) :
    Text.joinWith ", ".toList ((x :: xs).map f) ++ ']' :: r
      = f x ++ behind f xs r := by
  induction xs generalizing x with
  | nil => rfl
  | cons y ys ih =>
      show f x ++ ", ".toList ++ Text.joinWith ", ".toList ((y :: ys).map f)
          ++ ']' :: r = _
      rw [List.append_assoc, ih, behind_cons, List.append_assoc]

theorem list_nil_append (f : α → Text) (r : Text) :
    list (([] : List α).map f) ++ r = '[' :: ']' :: r := rfl

theorem list_cons_append (x : α) (xs : List α) (r : Text) :
    list ((x :: xs).map f) ++ r = '[' :: (f x ++ behind f xs r) := by
  rw [← joinWith_cons_append, list, List.cons_append, List.cons_append,
    List.append_assoc, List.singleton_append]

theorem Telling.read_behind (h : Telling f Same) {xs ys : List α} {r s : Text}
    (heq : behind f xs r = behind f ys s) :
    List.Forall₂ Same xs ys ∧ r = s := by
  induction xs generalizing ys with
  | nil =>
      cases ys with
      | nil => exact ⟨.nil, List.tail_eq_of_cons_eq heq⟩
      | cons y ys =>
          rw [behind_cons] at heq
          exact absurd (List.head_eq_of_cons_eq heq) (by decide)
  | cons x xs ih =>
      cases ys with
      | nil =>
          rw [behind_cons] at heq
          exact absurd (List.head_eq_of_cons_eq heq) (by decide)
      | cons y ys =>
          rw [behind_cons, behind_cons] at heq
          obtain ⟨hfirst, hrest⟩ :=
            h.read (follows_behind f xs r) (follows_behind f ys s)
            (List.append_cancel_left heq)
          obtain ⟨hitems, hend⟩ := ih hrest
          exact ⟨.cons hfirst hitems, hend⟩

/-- A list can be told apart by its items. -/
theorem Telling.list (h : Telling f Same) :
    Telling (fun xs => Literal.list (xs.map f)) (List.Forall₂ Same) where
  opens xs := ⟨'[', _, rfl, by decide⟩
  written {xs ys} hsame := by
    have hitems : xs.map f = ys.map f := by
      induction hsame with
      | nil => rfl
      | cons hfirst _ ih =>
          rw [List.map_cons, List.map_cons, h.written hfirst, ih]
    exact congrArg Literal.list hitems
  read {xs ys r s} _ _ heq := by
    -- no item begins with the closing bracket
    have hbracket : ∀ {y : α} {t u : Text}, ']' :: t ≠ f y ++ u := by
      intro y t u hclosed
      obtain ⟨c, rest, hopens, hc⟩ := h.opens y
      rw [hopens] at hclosed
      exact hc (List.head_eq_of_cons_eq hclosed).symm
    cases xs with
    | nil =>
        cases ys with
        | nil => exact ⟨.nil, List.append_cancel_left heq⟩
        | cons y ys =>
            rw [list_nil_append, list_cons_append] at heq
            exact absurd (List.tail_eq_of_cons_eq heq) hbracket
    | cons x xs =>
        cases ys with
        | nil =>
            rw [list_nil_append, list_cons_append] at heq
            exact absurd (List.tail_eq_of_cons_eq heq).symm hbracket
        | cons y ys =>
            rw [list_cons_append, list_cons_append] at heq
            obtain ⟨hfirst, hrest⟩ :=
              h.read (follows_behind f xs r) (follows_behind f ys s)
              (List.tail_eq_of_cons_eq heq)
            obtain ⟨hitems, hend⟩ := h.read_behind hrest
            exact ⟨.cons hfirst hitems, hend⟩

end Lists

-- ================================================================== texts

theorem quote_append_inj {t u r s : Text}
    (h : Script.quote t ++ r = Script.quote u ++ s) :
    t = u ∧ r = s := by
  have hread := congrArg Script.readQuoted? h
  rw [Script.readQuoted?_quote, Script.readQuoted?_quote, Option.some.injEq,
    Prod.mk.injEq] at hread
  exact hread

theorem telling_quote : Telling Script.quote (· = ·) where
  opens t := ⟨'\'', _, rfl, by decide⟩
  written := congrArg Script.quote
  read _ _ h := quote_append_inj h

/-- The argument of a call and its end. -/
theorem call_quote_append_inj {function : String} {t u r s : Text}
    (h : call function [Script.quote t] ++ r
      = call function [Script.quote u] ++ s) :
    t = u ∧ r = s := by
  unfold call Text.joinWith at h
  simp only [List.append_assoc, List.cons_append, List.append_cancel_left_eq,
    List.cons.injEq, true_and] at h
  obtain ⟨htext, hrest⟩ := quote_append_inj h
  exact ⟨htext, List.tail_eq_of_cons_eq hrest⟩

-- =============================================================== no marks

/-- Neither of the characters that end an item occurs in the text. -/
def Unmarked (t : Text) : Prop := ∀ c ∈ t, (c != ',' && c != ']') = true

instance (t : Text) : Decidable (Unmarked t) :=
  List.decidableBAll (fun c : Char => (c != ',' && c != ']') = true) t

theorem unmarked_append_inj {a b r s : Text} (ha : Unmarked a)
    (hb : Unmarked b) (hr : Follows r) (hs : Follows s) (h : a ++ r = b ++ s) :
    a = b ∧ r = s := by
  have hends : ∀ {t : Text}, Follows t →
      ∀ c ∈ t.head?, (c != ',' && c != ']') = false := by
    intro t ht c hc
    rcases ht c hc with rfl | rfl <;> rfl
  have hitem := Text.takeWhile_run ha (hends hr)
  rw [h, Text.takeWhile_run hb (hends hs)] at hitem
  subst hitem
  exact ⟨rfl, List.append_cancel_left h⟩

-- ================================================================ numbers

/-- What a finite number is written with. -/
theorem mem_number_finite {s : Bool} {rank : Fin Double.ranks} {c : Char}
    (h : c ∈ number (.finite s rank)) :
    c.isDigit = true ∨ c = '.' ∨ c = '-' := by
  have hmagnitude : ∀ {c r}, c ∈ Number.plainMagnitude r → c.isDigit = true
      ∨ c = '.' ∨ c = '-' :=
    fun hc => (Number.mem_plainMagnitude hc).imp_right Or.inl
  unfold number at h
  simp only at h
  split at h
  · rw [List.mem_singleton.1 h]
    exact Or.inl rfl
  · rw [Number.plain_finite] at h
    cases s with
    | false => exact hmagnitude h
    | true =>
        rcases List.mem_cons.1 h with rfl | h
        · exact Or.inr (Or.inr rfl)
        · exact hmagnitude h

theorem unmarked_number (x : Double) : Unmarked (number x) := by
  match x with
  | .nan => decide
  | .infinite false => decide
  | .infinite true => decide
  | .finite s rank =>
      intro c hc
      rw [Bool.and_eq_true, bne_iff_ne, bne_iff_ne]
      rcases mem_number_finite hc with hdigit | rfl | rfl
      · constructor <;> rintro rfl <;> cases hdigit
      · decide
      · decide

/-- Only what is not finite is made from a name. -/
theorem isFinite_iff_not_mem (x : Double) :
    x.isFinite = true ↔ 'f' ∉ number x := by
  match x with
  | .nan => decide
  | .infinite false => decide
  | .infinite true => decide
  | .finite s rank =>
      refine iff_of_true rfl fun hmem => ?_
      rcases mem_number_finite hmem with h | h | h
        <;> exact absurd h (by decide)

/-- A finite number is written as in plain notation, but without the sign of
a zero. -/
theorem number_finite (s : Bool) (rank : Fin Double.ranks) :
    number (.finite s rank)
      = Number.plain (.finite (s && rank.val != 0) rank) := by
  unfold number
  simp only
  by_cases hzero : rank.val = 0
  · rw [if_pos hzero, Number.plain_finite, Number.plainMagnitude,
      if_pos hzero, hzero]
    cases s <;> rfl
  · have hsign : (s && rank.val != 0) = s := by simp [hzero]
    rw [if_neg hzero, hsign]

theorem same_of_number_finite {s t : Bool} {rank other : Fin Double.ranks}
    (h : number (.finite s rank) = number (.finite t other)) :
    Value.Same (.number (.finite s rank)) (.number (.finite t other)) := by
  rw [number_finite, number_finite] at h
  obtain ⟨hsign, rfl⟩ := Number.plain_finite_inj h
  by_cases hzero : rank.val = 0
  · exact Or.inr ⟨beq_iff_eq.2 hzero, beq_iff_eq.2 hzero⟩
  · left
    have hnonzero : (rank.val != 0) = true := bne_iff_ne.2 hzero
    rw [hnonzero, Bool.and_true, Bool.and_true] at hsign
    rw [hsign]

theorem number_of_isZero {x : Double} (h : x.isZero = true) :
    number x = ['0'] := by
  match x with
  | .finite s rank => exact if_pos (beq_iff_eq.1 h)

/-- Numbers are told apart but for the signs of zeros. -/
theorem number_eq_iff {x y : Double} :
    number x = number y ↔ Value.Same (.number x) (.number y) := by
  constructor
  · intro h
    have hfinite : x.isFinite = y.isFinite := by
      rw [Bool.eq_iff_iff, isFinite_iff_not_mem, isFinite_iff_not_mem, h]
    match x, y with
    | .finite s rank, .finite t other => exact same_of_number_finite h
    | .nan, .nan => exact Or.inl rfl
    | .nan, .infinite s => cases s <;> exact absurd h (by decide)
    | .infinite s, .nan => cases s <;> exact absurd h (by decide)
    | .infinite s, .infinite t =>
        cases s <;> cases t <;> first
          | exact Or.inl rfl
          | exact absurd h (by decide)
  · rintro (rfl | ⟨hx, hy⟩)
    · rfl
    · rw [number_of_isZero hx, number_of_isZero hy]

end Literal

-- ================================================================= values

namespace TimeOfDay

/-- A text shows the time of day and nothing else. -/
theorem text_eq_iff {s t : Nat} :
    text s = text t ↔ s % secondsPerDay = t % secondsPerDay := by
  have hday : ∀ n, text (n % secondsPerDay) = text n := fun n => by
    unfold text
    rw [Nat.mod_mod]
  have hless : ∀ n, n % secondsPerDay < secondsPerDay :=
    fun n => Nat.mod_lt n (by decide)
  constructor
  · intro h
    rw [← hday s, ← hday t] at h
    have hread := congrArg parse? h
    rw [parse?_text (hless s), parse?_text (hless t)] at hread
    exact Option.some.inj hread
  · intro h
    rw [← hday s, ← hday t, h]

end TimeOfDay

theorem Date.text_inj {d e : Date} (h : d.text = e.text) : d = e := by
  have hread := congrArg parse? h
  rw [parse?_text, parse?_text] at hread
  exact Option.some.inj hread

namespace Value

/-- What a value is. -/
inductive Kind where
  | text
  | number
  | boolean
  | date
  | time
  | empty
  deriving DecidableEq

def kind : Value → Kind
  | text _ => .text
  | number _ => .number
  | boolean _ => .boolean
  | date _ => .date
  | time _ => .time
  | empty => .empty

/-- The first character of a literal tells what the value is. -/
def Kind.ofLead : Char → Kind
  | '\'' => .text
  | 'T' => .boolean
  | 'F' => .boolean
  | 'd' => .date
  | 't' => .time
  | 'N' => .empty
  | _ => .number

theorem Kind.ofLead_number {c : Char}
    (h : c.isDigit = true ∨ c = '.' ∨ c = '-') :
    ofLead c = .number := by
  unfold ofLead
  split <;> first
    | rfl
    | exact absurd h (by decide)

theorem exists_lead (v : Value) :
    ∃ c t, v.literal = c :: t ∧ Kind.ofLead c = v.kind := by
  cases v with
  | text t => exact ⟨'\'', _, rfl, rfl⟩
  | number x =>
      obtain ⟨c, t, htext⟩ :=
        List.exists_cons_of_ne_nil (Literal.number_ne_nil x)
      refine ⟨c, t, htext, ?_⟩
      match x with
      | .nan => cases htext; rfl
      | .infinite false => cases htext; rfl
      | .infinite true => cases htext; rfl
      | .finite s rank =>
          exact Kind.ofLead_number
            (Literal.mem_number_finite (htext ▸ List.mem_cons_self))
  | boolean b => cases b <;> exact ⟨_, _, rfl, rfl⟩
  | date d => exact ⟨'d', _, rfl, rfl⟩
  | time s => exact ⟨'t', _, rfl, rfl⟩
  | empty => exact ⟨'N', _, rfl, rfl⟩

theorem kind_eq_of_literal {v w : Value} {r s : Text}
    (h : v.literal ++ r = w.literal ++ s) :
    v.kind = w.kind := by
  obtain ⟨c, t, hv, hc⟩ := v.exists_lead
  obtain ⟨d, u, hw, hd⟩ := w.exists_lead
  rw [hv, hw] at h
  rw [← hc, ← hd, List.head_eq_of_cons_eq h]

theorem unmarked_boolean (b : Bool) :
    Literal.Unmarked (boolean b).literal := by
  cases b <;> decide

theorem boolean_literal_inj {a b : Bool}
    (h : (boolean a).literal = (boolean b).literal) :
    a = b := by
  cases a <;> cases b <;> first
    | rfl
    | exact absurd h (by decide)

/-- The literals of values can be told apart. -/
theorem telling_literal : Literal.Telling literal Same where
  opens v := by
    obtain ⟨c, t, hv, hc⟩ := v.exists_lead
    refine ⟨c, t, hv, ?_⟩
    rintro rfl
    cases v with
    | number x =>
        have hmem : ']' ∈ (number x).literal := hv ▸ List.mem_cons_self
        exact absurd (Literal.unmarked_number x ']' hmem) (by decide)
    | _ => cases hc
  written {v w} h := by
    unfold Same at h
    split at h
    next x y => exact Literal.number_eq_iff.2 h
    next s t =>
        exact congrArg (fun u => Literal.call "time_value" [Script.quote u])
          (TimeOfDay.text_eq_iff.2 h)
    next => rw [h]
  read {v w r s} hr hs h := by
    have hkind := kind_eq_of_literal h
    cases v with
    | text t =>
        cases w with
        | text u =>
            obtain ⟨htext, hrest⟩ := Literal.quote_append_inj h
            exact ⟨congrArg text htext, hrest⟩
        | _ => cases hkind
    | number x =>
        cases w with
        | number y =>
            obtain ⟨hnumber, hrest⟩ :=
              Literal.unmarked_append_inj (Literal.unmarked_number x)
              (Literal.unmarked_number y) hr hs h
            exact ⟨Literal.number_eq_iff.1 hnumber, hrest⟩
        | _ => cases hkind
    | boolean a =>
        cases w with
        | boolean b =>
            obtain ⟨hword, hrest⟩ :=
              Literal.unmarked_append_inj (unmarked_boolean a)
              (unmarked_boolean b) hr hs h
            exact ⟨congrArg boolean (boolean_literal_inj hword), hrest⟩
        | _ => cases hkind
    | date d =>
        cases w with
        | date e =>
            obtain ⟨htext, hrest⟩ := Literal.call_quote_append_inj h
            exact ⟨congrArg date (Date.text_inj htext), hrest⟩
        | _ => cases hkind
    | time a =>
        cases w with
        | time b =>
            obtain ⟨htext, hrest⟩ := Literal.call_quote_append_inj h
            exact ⟨TimeOfDay.text_eq_iff.1 htext, hrest⟩
        | _ => cases hkind
    | empty =>
        cases w with
        | empty => exact ⟨rfl, List.append_cancel_left h⟩
        | _ => cases hkind

end Value

-- ================================================================== grids

namespace Literal

/-- Lists of values, grids of them and lists of texts are told apart by what
they hold: those with one text have the same shape and, place by place, the
same values. -/
theorem grid_unambiguous :
    (∀ g h : List (List Value),
        grid g = grid h ↔ List.Forall₂ (List.Forall₂ Value.Same) g h)
      ∧ (∀ xs ys : List Value, row xs = row ys ↔ List.Forall₂ Value.Same xs ys)
      ∧ ∀ ts us : List Text, texts ts = texts us ↔ ts = us := by
  refine ⟨fun g h => Value.telling_literal.list.list.eq_iff,
    fun xs ys => Value.telling_literal.list.eq_iff, fun ts us => ?_⟩
  have htexts : texts ts = texts us ↔ List.Forall₂ (· = ·) ts us :=
    telling_quote.list.eq_iff
  rwa [List.forall₂_eq_eq_eq] at htexts

example :
    row [.text "a', 'b".toList]
      ≠ row [.text "a".toList, .text "b".toList] := by decide

end Literal

end GridScript
