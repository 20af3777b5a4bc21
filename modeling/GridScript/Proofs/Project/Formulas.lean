/-
The formulas of a table. They are kept under the texts of their targets,
and the text of a target that was read is the same for all its spellings
and for no other target (`Target.text_injective`). So a table keeps its
formulas as if they were kept under the targets themselves: setting a
formula replaces the one that was set on the same target, under whatever
spelling, and leaves those of all other targets alone
(`get?_formulas_replay`).

The map itself takes any text for a key, and a finished run reports its
formulas under keys of its own making. What is said of the keys therefore
asks that the formulas of the project are `Keyed` by texts of targets at
the start; commands keep them so.
-/
import GridScript.Proofs.Project.WellFormed
import Mathlib.Logic.ExistsUnique

namespace GridScript

-- =============================================================== targets

namespace Target

/-- Targets that can be read are told apart by their texts, a cell from a
range too. -/
theorem text_injective {a b : Target} (ha : a.Readable) (hb : b.Readable)
    (h : a.text = b.text) : a = b := by
  have hread : parse a.text = parse b.text := by rw [h]
  rw [parse_text ha, parse_text hb] at hread
  injection hread

theorem isText_text {target : Target} (h : target.Readable) :
    IsText target.text :=
  ⟨target, rfl, parse_text h⟩

/-- The text of a target is the text of one target that can be read. -/
theorem IsText.existsUnique {key : Text} (h : IsText key) :
    ∃! target : Target, (∃ input, parse input = .ok target)
      ∧ target.text = key := by
  obtain ⟨target, rfl, hread⟩ := h
  refine ⟨target, ⟨⟨_, hread⟩, rfl⟩, ?_⟩
  rintro other ⟨⟨input, hother⟩, htext⟩
  exact text_injective (readable_of_parse hother)
    (readable_of_parse hread) htext

/-- Two texts of targets that are read alike are the same. -/
theorem IsText.eq_of_parse {key key' : Text} (h : IsText key)
    (h' : IsText key') (hparse : parse key = parse key') : key = key' := by
  obtain ⟨target, hkey, hread⟩ := h
  obtain ⟨target', hkey', hread'⟩ := h'
  rw [hread, hread'] at hparse
  injection hparse with htarget
  rw [hkey, hkey', htarget]

end Target

-- ================================================================ tables

/-- What is on a target once a formula is set on it. -/
def Formula.left (formula : Text) : Option Text :=
  if Command.clears formula then none else some (Command.storedFormula formula)

/-- Setting a formula touches the key of its target alone. -/
theorem Table.get?_setFormula (t : Table) (target : Target)
    (formula key : Text) :
    (t.setFormula target formula).formulas.get? key
      = if target.text = key then Formula.left formula
        else t.formulas.get? key := by
  unfold setFormula Formula.left
  cases Command.clears formula with
  | false =>
      simp only [Bool.false_eq_true, if_false]
      exact SortedMap.get?_insert_eq _ _ _ _
  | true =>
      simp only [if_true, SortedMap.get?_erase]
      by_cases h : target.text = key
      · rw [if_pos h, if_pos (by rw [h]; exact Std.ReflOrd.compare_self)]
      · rw [if_neg h,
          if_neg fun he => h (Std.LawfulEqCmp.eq_of_compare he).symm]

-- ============================================================== projects

/-- What is on a target of a table once a command sets a formula on it. -/
def Command.formulaSet? (id : Text) (target : Target) :
    Command → Option (Option Text)
  | setFormula id' target' formula =>
    if id' = id ∧ target' = target then some (Formula.left formula) else none
  | _ => none

namespace Project

variable {p q : Project}

/-- The formulas of a table; none if there is no table. -/
def formulas (p : Project) (id : Text) : SortedMap Text Text :=
  ((p.table? id).map Table.formulas).getD .empty

/-- The formulas of every table are kept under texts of targets. -/
def Keyed (p : Project) : Prop :=
  ∀ id, ∀ key ∈ (p.formulas id).keys, Target.IsText key

theorem formulas_congr (h : q.tables = p.tables) (id : Text) :
    q.formulas id = p.formulas id := by
  unfold formulas table?
  rw [h]

/-- The formulas of a table that is changed. -/
theorem formulas_changeTable {id' : Text} {f : Table → Table}
    (h : p.changeTable id' f = .ok q) (id : Text) :
    ∃ t, p.table? id' = some t
      ∧ q.formulas id = if id' = id then (f t).formulas
        else p.formulas id := by
  obtain ⟨t, ht, hq⟩ := tables_changeTable h
  refine ⟨t, ht, ?_⟩
  unfold formulas table?
  rw [hq, SortedMap.get?_insert_eq]
  split <;> rfl

/-- A table that keeps its formulas. -/
theorem formulas_changeTable_of_same {id' : Text} {f : Table → Table}
    (h : p.changeTable id' f = .ok q) (hf : ∀ t, (f t).formulas = t.formulas)
    (id : Text) :
    q.formulas id = p.formulas id := by
  obtain ⟨t, ht, hq⟩ := formulas_changeTable h id
  rw [hq]
  split
  case isTrue hid =>
      rw [hf]
      unfold formulas
      rw [← hid, ht]
      rfl
  case isFalse => rfl

/-- A new table has no formulas, as if it had been there before. -/
theorem formulas_addTable {new : Table} (hempty : new.formulas = .empty)
    (h : p.addTable new = .ok q) (id : Text) :
    q.formulas id = p.formulas id := by
  obtain ⟨hnone, hq⟩ := tables_addTable h
  unfold formulas table? at *
  rw [hq, SortedMap.get?_insert_eq]
  split
  case isTrue hid =>
      rw [← hid, hnone]
      exact hempty
  case isFalse => rfl

/-- What a command can do to the formulas of a table: nothing, or set one
of them. -/
theorem formulas_apply {c : Command} (h : c.apply p = .ok q) (id : Text) :
    (q.formulas id = p.formulas id ∧ ∀ target, c.formulaSet? id target = none)
      ∨ ∃ target formula, c = .setFormula id target formula
        ∧ ∀ key, (q.formulas id).get? key
          = if target.text = key then Formula.left formula
            else (p.formulas id).get? key := by
  cases c with
  | createSheet id' name =>
      exact Or.inl ⟨formulas_congr (tables_addSheet h) id, fun _ => rfl⟩
  | renameSheet id' name =>
      exact Or.inl ⟨formulas_congr (tables_changeSheet h) id, fun _ => rfl⟩
  | createTable new => exact Or.inl ⟨formulas_addTable rfl h id, fun _ => rfl⟩
  | createSummary new =>
      exact Or.inl
        ⟨formulas_addTable rfl (Command.addTable_of_createSummary h) id,
          fun _ => rfl⟩
  | setCells id' cells =>
      refine Or.inl
        ⟨formulas_changeTable_of_same h (fun t => ?_) id, fun _ => rfl⟩
      rw [Table.writeAll_eq]
  | setRange id' start values =>
      refine Or.inl
        ⟨formulas_changeTable_of_same h (fun t => ?_) id, fun _ => rfl⟩
      rw [Table.writeAll_eq]
  | setFormula id' target formula =>
      obtain ⟨t, ht, hq⟩ := formulas_changeTable h id
      by_cases hid : id' = id
      · right
        subst hid
        refine ⟨target, formula, rfl, fun key => ?_⟩
        rw [hq, if_pos rfl, Table.get?_setFormula]
        unfold formulas
        rw [ht]
        rfl
      · left
        rw [hq, if_neg hid]
        exact ⟨rfl, fun _ => if_neg fun hboth => hid hboth.1⟩
  | script lines =>
      injection h with hq
      exact Or.inl ⟨by rw [hq], fun _ => rfl⟩
  | _ =>
      exact Or.inl
        ⟨formulas_changeTable_of_same h (fun _ => rfl) id, fun _ => rfl⟩

/-- A command leaves on a target what it sets there, and what was there if
it sets nothing. -/
theorem get?_formulas_apply {c : Command} (hc : c.Addressed)
    (h : c.apply p = .ok q) (id : Text) {target : Target}
    (ht : target.Readable) :
    (q.formulas id).get? target.text
      = (c.formulaSet? id target).getD ((p.formulas id).get? target.text) := by
  rcases formulas_apply h id with ⟨hsame, hnone⟩ | ⟨set, formula, rfl, hset⟩
  · rw [hsame, hnone]
    rfl
  · obtain ⟨input, hread⟩ := hc
    rw [hset, Command.formulaSet?]
    by_cases htarget : set = target
    · rw [if_pos (by rw [htarget]), if_pos ⟨rfl, htarget⟩]
      rfl
    · have htext : set.text ≠ target.text := fun heq =>
        htarget (Target.text_injective (Target.readable_of_parse hread) ht heq)
      rw [if_neg htext, if_neg fun hboth => htarget hboth.2]
      rfl

/-- After commands, a target has the formula that was set on it last. -/
theorem get?_formulas_replay {cs : List Command} (hcs : ∀ c ∈ cs, c.Addressed)
    (h : p.replay cs = .ok q) (id : Text) {target : Target}
    (ht : target.Readable) :
    (q.formulas id).get? target.text
      = ((cs.filterMap (Command.formulaSet? id target)).getLast?).getD
          ((p.formulas id).get? target.text) := by
  induction cs generalizing p with
  | nil =>
      injection h with hpq
      rw [hpq]
      rfl
  | cons c cs ih =>
      obtain ⟨p', hc, hrest⟩ := exists_replay_of_append (a := [c]) h
      rw [replay_singleton] at hc
      obtain ⟨haddressed, hothers⟩ := List.forall_mem_cons.1 hcs
      rw [ih hothers hrest, get?_formulas_apply haddressed hc id ht,
        List.filterMap_cons]
      cases c.formulaSet? id target with
      | none => rfl
      | some left =>
          rw [List.getLast?_cons]
          cases (cs.filterMap (Command.formulaSet? id target)).getLast? <;> rfl

-- ================================================================== keys

theorem keyed_iff :
    p.Keyed ↔ ∀ id key formula, (p.formulas id).get? key = some formula →
      Target.IsText key := by
  unfold Keyed SortedMap.keys
  constructor
  · intro h id key formula hfound
    exact h id key
      (List.mem_map.2 ⟨_, SortedMap.get?_eq_some_iff.1 hfound, rfl⟩)
  · intro h id key hkey
    obtain ⟨⟨_, formula⟩, he, rfl⟩ := List.mem_map.1 hkey
    exact h id _ formula (SortedMap.get?_eq_some_iff.2 he)

theorem keyed_empty : empty.Keyed := fun _ _ hkey => by cases hkey

/-- A formula that is set comes under the text of its target. -/
theorem Keyed.apply (hp : p.Keyed) {c : Command} (hc : c.Addressed)
    (h : c.apply p = .ok q) :
    q.Keyed := by
  rw [keyed_iff] at hp ⊢
  intro id key stored hfound
  rcases formulas_apply h id with ⟨hsame, -⟩ | ⟨target, formula, rfl, hset⟩
  · rw [hsame] at hfound
    exact hp id key stored hfound
  · obtain ⟨input, hread⟩ := hc
    rw [hset] at hfound
    by_cases htext : target.text = key
    · exact htext ▸ Target.isText_text (Target.readable_of_parse hread)
    · rw [if_neg htext] at hfound
      exact hp id key stored hfound

theorem Keyed.replay (hp : p.Keyed) {cs : List Command}
    (hcs : ∀ c ∈ cs, c.Addressed) (h : p.replay cs = .ok q) : q.Keyed := by
  induction cs generalizing p with
  | nil =>
      injection h with hpq
      exact hpq ▸ hp
  | cons c cs ih =>
      obtain ⟨p', hc, hrest⟩ := exists_replay_of_append (a := [c]) h
      rw [replay_singleton] at hc
      obtain ⟨haddressed, hothers⟩ := List.forall_mem_cons.1 hcs
      exact ih (hp.apply haddressed hc) hothers hrest

-- ======================================================== the theorem

/-- The text of a target is a key for it: it is read as the target, and two
spellings mean one target if and only if the texts of their targets are the
same. Whatever commands are applied, each target has the formula that was
set on it last, if that did not clear it; and where formulas are kept under
such texts, no entry stands for two targets and no two entries for one. -/
theorem one_formula_per_target :
    (∀ input target, Target.parse input = .ok target →
      Target.parse target.text = .ok target)
      ∧ (∀ input input' target target', Target.parse input = .ok target →
          Target.parse input' = .ok target' →
            (target = target' ↔ target.text = target'.text))
      ∧ ∀ (p q : Project) (cs : List Command), (∀ c ∈ cs, c.Addressed) →
          p.replay cs = .ok q → ∀ id,
            (∀ input target, Target.parse input = .ok target →
              (q.formulas id).get? target.text
                = ((cs.filterMap
                    (Command.formulaSet? id target)).getLast?).getD
                    ((p.formulas id).get? target.text))
            ∧ (p.Keyed →
              (∀ key ∈ (q.formulas id).keys, ∃! target : Target,
                (∃ input, Target.parse input = .ok target) ∧ target.text = key)
              ∧ ∀ key ∈ (q.formulas id).keys, ∀ key' ∈ (q.formulas id).keys,
                Target.parse key = Target.parse key' → key = key') := by
  refine ⟨fun input target => Target.parse_text_of_parse, ?_, ?_⟩
  · intro input input' target target' hread hread'
    refine ⟨fun h => by rw [h], ?_⟩
    exact Target.text_injective (Target.readable_of_parse hread)
      (Target.readable_of_parse hread')
  · intro p q cs hcs hreplay id
    refine ⟨fun input target hread => ?_, fun hp => ?_⟩
    · exact get?_formulas_replay hcs hreplay id
        (Target.readable_of_parse hread)
    · have hq : q.Keyed := hp.replay hcs hreplay
      refine ⟨fun key hkey => (hq id key hkey).existsUnique, ?_⟩
      intro key hkey key' hkey'
      exact (hq id key hkey).eq_of_parse (hq id key' hkey')

/-- A range of column labels that is spelt in two ways. -/
def header : Target := .range (.ofCorners .topLabels (0, 0) (2, 1))

/-- A formula on a range, one on a cell, and another on the range. -/
def reworded : List Command :=
  [.createSheet "s".toList "S".toList,
   .createTable ⟨"s".toList, "t".toList, "T".toList, default, 2, 2, .none⟩,
   .setFormula "t".toList header "=A0".toList,
   .setFormula "t".toList (.cell ⟨.body, 1, 1⟩) "B0".toList,
   .setFormula "t".toList header " = C0".toList]

theorem one_formula_per_target_reworded :
    Target.parse "top-labels[ $b$002 :a0]".toList = .ok header
      ∧ Target.parse "top_labels[A0:B2]".toList = .ok header
      ∧ Target.parse "b1:$B1 ".toList = .ok (.cell ⟨.body, 1, 1⟩)
      ∧ (∀ c ∈ reworded, c.Addressed) ∧ empty.Keyed
      ∧ ∃ q, empty.replay reworded = .ok q
        ∧ (q.formulas "t".toList).get? header.text = some "=C0".toList
        ∧ (q.formulas "t".toList).get? (Target.cell ⟨.body, 1, 1⟩).text
          = some "=B0".toList
        ∧ ∀ key ∈ (q.formulas "t".toList).keys, ∃! target : Target,
          (∃ input, Target.parse input = .ok target) ∧ target.text = key := by
  have hdashed : Target.parse "top-labels[ $b$002 :a0]".toList = .ok header :=
    rfl
  have hplain : Target.parse "top_labels[A0:B2]".toList = .ok header := rfl
  have hcell : Target.parse "b1:$B1 ".toList = .ok (.cell ⟨.body, 1, 1⟩) := rfl
  have haddressed : ∀ c ∈ reworded, c.Addressed := by
    unfold reworded
    simp only [List.forall_mem_cons]
    exact ⟨trivial, trivial, ⟨_, hdashed⟩, ⟨_, hcell⟩, ⟨_, hplain⟩,
      fun c hc => by cases hc⟩
  obtain ⟨q, hreplay⟩ : ∃ q, empty.replay reworded = .ok q := ⟨_, rfl⟩
  obtain ⟨hlast, hkeys⟩ :=
    one_formula_per_target.2.2 empty q reworded haddressed hreplay "t".toList
  refine ⟨hdashed, hplain, hcell, haddressed, keyed_empty, q, hreplay,
    ?_, ?_, ?_⟩
  · exact (hlast _ header hdashed).trans (by decide)
  · exact (hlast _ _ hcell).trans (by decide)
  · exact (hkeys keyed_empty).1

end Project

end GridScript
