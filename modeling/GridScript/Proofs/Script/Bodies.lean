/-
Bodies, however they are indented. What is read from a body are statements
that are level: the first line sets a margin, deeper lines are cut at that
margin, and lines that fall short of it are moved to it. Tabs and spaces
count alike, and blank lines are not part of a body.

# One form for each body

Written four spaces deep, statements that were read from a body are read
from it again (`takeBody_written`). So there is nothing about how a body was
indented that is still to be lost, and a body that was written once is not
changed by being written again. It ends behind its last statement unless
what follows goes on with it, and lines at the margin do not.

The first statement is told apart from the others. Its line is cut behind
its spaces and tabs, where the others are trimmed, so it may begin with a
blank of another kind. It is the first that is written, too, and is cut at
the same place.
-/
import GridScript.Proofs.Script.Contexts

namespace GridScript.Script

open Text (isBlank allBlank trimEnd)

-- =========================================================== indentation

/-- The indentation of a line as far as a place, and what is indented. -/
theorem exists_indentation {n : Nat} {l : Text} (h : n ≤ indentWidth l) :
    ∃ spaces, (∀ c ∈ spaces, (c == ' ' || c == '\t') = true)
      ∧ spaces.length = n
      ∧ l = spaces ++ l.drop n := by
  have hfront : l.take n <+: l.takeWhile fun c => c == ' ' || c == '\t' :=
    List.prefix_of_prefix_length_le (List.take_prefix n l)
      (List.takeWhile_prefix _)
      (Nat.le_trans (List.length_take_le n l) h)
  have hlength : n ≤ l.length :=
    Nat.le_trans h (List.takeWhile_prefix _).length_le
  refine ⟨l.take n, ?_, List.length_take_of_le hlength,
    (List.take_append_drop n l).symm⟩
  intro c hc
  exact List.all_eq_true.1 List.all_takeWhile c (hfront.subset hc)

theorem indentWidth_drop {n : Nat} {l : Text} (h : n ≤ indentWidth l) :
    indentWidth (l.drop n) = indentWidth l - n := by
  obtain ⟨spaces, hspaces, hlength, hl⟩ := exists_indentation h
  have hwidth := indentWidth_append hspaces (l.drop n)
  rw [← hl, hlength] at hwidth
  omega

theorem allBlank_drop {n : Nat} {l : Text} (h : n ≤ indentWidth l) :
    allBlank (l.drop n) = allBlank l := by
  obtain ⟨spaces, hspaces, -, hl⟩ := exists_indentation h
  have hblank : allBlank spaces = true := by
    rw [Text.allBlank_iff]
    intro c hc
    have hspace := hspaces c hc
    rw [Bool.or_eq_true, beq_iff_eq, beq_iff_eq] at hspace
    rcases hspace with rfl | rfl <;> rfl
  have hwhole := congrArg allBlank hl
  rw [Text.allBlank_append, hblank, Bool.true_and] at hwhole
  exact hwhole.symm

/-- Blanks that do not count as indentation end it, if nothing else does. -/
theorem indentWidth_append_of_not_blank {a : Text} (h : allBlank a = false)
    (b : Text) :
    indentWidth (a ++ b) = indentWidth a := by
  induction a with
  | nil => cases h
  | cons c a ih =>
      cases hc : isBlank c with
      | false =>
          rw [List.cons_append, indentWidth_cons_of_not_blank hc,
            indentWidth_cons_of_not_blank hc]
      | true =>
          rw [Text.allBlank_cons, hc, Bool.true_and] at h
          unfold indentWidth at ih ⊢
          rw [List.cons_append, List.takeWhile_cons, List.takeWhile_cons]
          split
          next => rw [List.length_cons, List.length_cons, ih h]
          next => rfl

section Trimming

variable {l : Text}

theorem allBlank_trimEnd : allBlank (trimEnd l) = allBlank l := by
  obtain ⟨b, hb, hl⟩ := Text.exists_blank_end l
  have hwhole := congrArg allBlank hl
  rw [Text.allBlank_append, hb, Bool.and_true] at hwhole
  exact hwhole.symm

theorem indentWidth_trimEnd (h : allBlank l = false) :
    indentWidth (trimEnd l) = indentWidth l := by
  obtain ⟨b, -, hl⟩ := Text.exists_blank_end l
  have hfilled : allBlank (trimEnd l) = false := allBlank_trimEnd.trans h
  have hwhole := congrArg indentWidth hl
  rw [indentWidth_append_of_not_blank hfilled] at hwhole
  exact hwhole.symm

/-- Something is left of a line that is not blank, and it begins with no
blank. -/
theorem exists_trim (h : allBlank l = false) :
    ∃ c t, Text.trim l = c :: t ∧ isBlank c = false := by
  cases htrim : Text.trim l with
  | cons c t => exact ⟨c, t, rfl, Text.isBlank_head_trim htrim⟩
  | nil =>
      have hbehind : allBlank (Text.trimStart l) = true :=
        Text.trimEnd_eq_nil_iff.1 htrim
      have hbefore : allBlank (l.takeWhile isBlank) = true :=
        List.all_takeWhile
      have hparts : l.takeWhile isBlank ++ Text.trimStart l = l :=
        List.takeWhile_append_dropWhile
      have hwhole := congrArg allBlank hparts
      rw [Text.allBlank_append, hbefore, Bool.true_and] at hwhole
      rw [← hwhole] at h
      cases hbehind.symm.trans h

end Trimming

-- ================================================================ reading

section Reading

variable {l : Text} (hfilled : allBlank l = false)
include hfilled

/-- The line that sets the margin, cut at it. -/
theorem level_first {nested : List Text}
    (h : ∀ m ∈ nested, 0 < indentWidth m ∧ trimEnd m = m) :
    (⟨trimEnd (l.drop (indentWidth l)), nested⟩ : Statement).Level := by
  have hdrop : allBlank (l.drop (indentWidth l)) = false :=
    (allBlank_drop (Nat.le_refl _)).trans hfilled
  refine ⟨?_, allBlank_trimEnd.trans hdrop, Text.trimEnd_trimEnd _, h⟩
  show indentWidth (trimEnd (l.drop (indentWidth l))) = 0
  rw [indentWidth_trimEnd hdrop, indentWidth_drop (Nat.le_refl _),
    Nat.sub_self]

/-- A line that is not deeper than the margin, moved to it. -/
theorem level_trim {nested : List Text}
    (h : ∀ m ∈ nested, 0 < indentWidth m ∧ trimEnd m = m) :
    (⟨Text.trim l, nested⟩ : Statement).Level := by
  obtain ⟨c, t, htrim, hc⟩ := exists_trim hfilled
  refine ⟨?_, ?_, Text.trimEnd_trimEnd _, h⟩
  · rw [htrim]
    exact indentWidth_cons_of_not_blank hc
  · rw [htrim, Text.allBlank_cons, hc]
    rfl

theorem trimStart_trim : Text.trimStart (Text.trim l) = Text.trim l := by
  obtain ⟨c, t, htrim, hc⟩ := exists_trim hfilled
  rw [htrim]
  exact Text.trimStart_of_head hc

/-- A line that is deeper than the margin, cut at it. -/
theorem nested_of_deeper {level : Nat} (h : level < indentWidth l) :
    0 < indentWidth (trimEnd (l.drop level))
      ∧ trimEnd (trimEnd (l.drop level)) = trimEnd (l.drop level) := by
  have hdrop : allBlank (l.drop level) = false :=
    (allBlank_drop (Nat.le_of_lt h)).trans hfilled
  rw [indentWidth_trimEnd hdrop, indentWidth_drop (Nat.le_of_lt h)]
  exact ⟨by omega, Text.trimEnd_trimEnd _⟩

end Reading

/-- Behind the line that sets the margin. -/
theorem cutNested_level (level : Nat) {ls : List Text}
    (h : ∀ l ∈ ls, allBlank l = false) :
    (∀ l ∈ (cutNested level ls).1, 0 < indentWidth l ∧ trimEnd l = l)
      ∧ (∀ s ∈ (cutNested level ls).2, s.Level
        ∧ Text.trimStart s.head = s.head) := by
  induction ls with
  | nil => exact ⟨List.forall_mem_nil _, List.forall_mem_nil _⟩
  | cons l ls ih =>
      obtain ⟨hfilled, hrest⟩ := List.forall_mem_cons.1 h
      obtain ⟨hnested, hstatements⟩ := ih hrest
      rw [cutNested]
      generalize cutNested level ls = cut at hnested hstatements ⊢
      obtain ⟨nested, statements⟩ := cut
      dsimp only at hnested hstatements ⊢
      split
      case isTrue hdeeper =>
          exact ⟨List.forall_mem_cons.2
            ⟨nested_of_deeper hfilled hdeeper, hnested⟩, hstatements⟩
      case isFalse =>
          exact ⟨List.forall_mem_nil _, List.forall_mem_cons.2
            ⟨⟨level_trim hfilled hnested, trimStart_trim hfilled⟩,
              hstatements⟩⟩

theorem bodied_statementsOf {ls : List Text}
    (h : ∀ l ∈ ls, allBlank l = false) :
    Bodied (statementsOf ls) := by
  cases ls with
  | nil => exact ⟨List.forall_mem_nil _, List.forall_mem_nil _⟩
  | cons l ls =>
      obtain ⟨hfilled, hrest⟩ := List.forall_mem_cons.1 h
      obtain ⟨hnested, hstatements⟩ := cutNested_level (indentWidth l) hrest
      exact ⟨List.forall_mem_cons.2
        ⟨level_first hfilled hnested, fun s hs => (hstatements s hs).1⟩,
        fun s hs => (hstatements s hs).2⟩

/-- The lines of a body are some of those that it is read from, and none of
them is blank. -/
theorem mem_cutBody {l : Text} {ls : List Text} (h : l ∈ (cutBody ls).1) :
    l ∈ ls ∧ allBlank l = false := by
  fun_induction cutBody ls with
  | case1 => cases h
  | case2 m ls _ _ ih =>
      obtain ⟨hmem, hfilled⟩ := ih h
      exact ⟨List.mem_cons_of_mem m hmem, hfilled⟩
  | case3 => cases h
  | case4 => cases h
  | case5 m ls hblank _ body rest heq ih =>
      rcases List.mem_cons.1 h with rfl | h
      · exact ⟨List.mem_cons_self, by simpa using hblank⟩
      · rw [heq] at ih
        obtain ⟨hmem, hfilled⟩ := ih h
        exact ⟨List.mem_cons_of_mem m hmem, hfilled⟩

theorem bodied_takeBody (ls : List Text) : Bodied (takeBody ls).1 :=
  bodied_statementsOf fun _ hl => (mem_cutBody hl).2

-- ================================================================== texts

/-- A statement as one text, with line feeds between its lines. -/
def Statement.text (s : Statement) : Text := Text.joinWith ['\n'] s.lines

/-- A statement is written as the lines of its text. -/
theorem Statement.render_eq {s : Statement} (h : ∀ l ∈ s.lines, '\n' ∉ l) :
    s.render = (Text.splitOn '\n' s.text).map (indent ++ ·) := by
  have hne : s.lines ≠ [] := List.cons_ne_nil _ _
  unfold Statement.text Statement.render
  rw [Text.splitOn_joinWith hne h]

theorem againstMargin_subset (margin : Nat) (l : Text) :
    againstMargin margin l ⊆ l := by
  unfold againstMargin
  split
  case isTrue =>
      exact fun _ hc => List.mem_of_mem_drop (Text.trimEnd_subset _ hc)
  case isFalse => exact Text.trim_subset l

/-- What stands in a statement stands in a line that it was read from. -/
theorem exists_of_mem_statementsOf {l : Text} {s : Statement} {ls : List Text}
    (hs : s ∈ statementsOf ls) (hl : l ∈ s.lines) : ∃ m ∈ ls, l ⊆ m := by
  cases ls with
  | nil => cases hs
  | cons m ls =>
      have hlines : l ∈ (statementsOf (m :: ls)).flatMap Statement.lines :=
        List.mem_flatMap.2 ⟨s, hs, hl⟩
      rw [lines_statementsOf] at hlines
      rcases List.mem_cons.1 hlines with rfl | hbehind
      · exact ⟨m, List.mem_cons_self, fun _ hc =>
          List.mem_of_mem_drop (Text.trimEnd_subset _ hc)⟩
      · obtain ⟨m', hm', rfl⟩ := List.mem_map.1 hbehind
        exact ⟨m', List.mem_cons_of_mem m hm', againstMargin_subset _ m'⟩

/-- Lines without a line feed give statements whose lines have none. -/
theorem no_feed_takeBody {ls : List Text} (h : ∀ l ∈ ls, '\n' ∉ l)
    {s : Statement} (hs : s ∈ (takeBody ls).1) : ∀ l ∈ s.lines, '\n' ∉ l := by
  intro l hl hfeed
  obtain ⟨m, hm, hsub⟩ := exists_of_mem_statementsOf hs hl
  exact h m (mem_cutBody hm).1 (hsub hfeed)

-- ============================================================== once more

theorem resumes_of_margin {ls : List Text} (h : ∀ l ∈ ls, indentWidth l = 0) :
    resumes ls = false := by
  induction ls with
  | nil => rfl
  | cons l ls ih =>
      obtain ⟨hwidth, hrest⟩ := List.forall_mem_cons.1 h
      exact resumes_cons_eq_false (Or.inr hwidth) (ih hrest)

/-- The body ends behind its statements if and only if what follows does not
go on with it. -/
theorem takeBody_render_iff {ss : List Statement} (h : Bodied ss)
    (below : List Text) :
    takeBody (ss.flatMap Statement.render ++ below) = (ss, below)
      ↔ resumes below = false := by
  refine ⟨fun hread => ?_, takeBody_render h⟩
  -- a line that is added to the body shows in its statements
  have hstatements : statementsOf
      (ss.flatMap Statement.render ++ (cutBody below).1) = ss := by
    unfold takeBody at hread
    rw [cutBody_append (body_render h.level)] at hread
    exact congrArg Prod.fst hread
  have hsame := hstatements.trans (statementsOf_render h).symm
  exact (cutBody_eq_nil_iff below).1 (statementsOf_append_eq_iff.1 hsame)

/-- From whatever lines the statements of a body are read: written as a
block's statements are written, they are read back, and the lines below are
left over. This holds at the end of the script and in front of lines at the
margin, and in general if and only if the next line below that is not blank
is not indented. Each statement is written as the lines of its text. -/
theorem takeBody_written (ls : List Text) :
    (∀ below, (∀ l ∈ below, indentWidth l = 0) →
        takeBody ((takeBody ls).1.flatMap Statement.render ++ below)
          = ((takeBody ls).1, below))
      ∧ (∀ below, takeBody ((takeBody ls).1.flatMap Statement.render ++ below)
          = ((takeBody ls).1, below) ↔ resumes below = false)
      ∧ ((∀ l ∈ ls, '\n' ∉ l) → ∀ s ∈ (takeBody ls).1,
          s.render = (Text.splitOn '\n' s.text).map (indent ++ ·)) := by
  have hbodied := bodied_takeBody ls
  refine ⟨?_, takeBody_render_iff hbodied, ?_⟩
  · intro below hbelow
    exact takeBody_render hbodied (resumes_of_margin hbelow)
  · intro hls s hs
    exact s.render_eq (no_feed_takeBody hls hs)

/-- A body of tabs and spaces with blank lines in it. Its first line begins
with a blank that is no indentation, and the others are deeper than the
margin or fall short of it. -/
def crookedBody : List Text :=
  ["\t \u00a0a0 = 1  ".toList, "   ".toList, [], "\t\t  + b0".toList,
    " if c0:".toList, "      d0 = 2".toList, "\t\u2003e0 = 3".toList, [],
    "done()".toList]

def crookedStatements : List Statement :=
  [⟨"\u00a0a0 = 1".toList, ["  + b0".toList]⟩,
    ⟨"if c0:".toList, ["    d0 = 2".toList]⟩, ⟨"e0 = 3".toList, []⟩]

theorem takeBody_written_crooked :
    (takeBody crookedBody).1 = crookedStatements
      ∧ (∀ l ∈ crookedBody, '\n' ∉ l)
      ∧ (∀ l ∈ [[], "done()".toList], indentWidth l = 0)
      ∧ takeBody
          (crookedStatements.flatMap Statement.render ++ [[], "done()".toList])
          = (crookedStatements, [[], "done()".toList])
      ∧ takeBody
          (crookedStatements.flatMap Statement.render
            ++ [[], "    f0 = 4".toList])
          ≠ (crookedStatements, [[], "    f0 = 4".toList])
      ∧ ∀ s ∈ crookedStatements,
        s.render = (Text.splitOn '\n' s.text).map (indent ++ ·) := by
  have hread : (takeBody crookedBody).1 = crookedStatements := by
    decide +kernel
  have hfeed : ∀ l ∈ crookedBody, '\n' ∉ l := by decide
  have hmargin : ∀ l ∈ [[], "done()".toList], indentWidth l = 0 := by decide
  obtain ⟨habove, hiff, htexts⟩ := takeBody_written crookedBody
  rw [hread] at habove hiff htexts
  refine ⟨hread, hfeed, hmargin, habove _ hmargin, fun h => ?_, htexts hfeed⟩
  have hresumes : resumes [[], "    f0 = 4".toList] = true := by decide
  rw [(hiff _).1 h] at hresumes
  cases hresumes

end GridScript.Script
