/-
A selection that runs by itself. A range of bytes selects a text unless an
end of it is out of place (`cutRange?_eq_none_iff`). What the selection is
given in front of it ends a line, so it begins one, and the lines of the
result are those of its parts (`lines_append`); but for the last line, which
may lose a carriage return when a feed is put behind it. A line that creates
the project still does so without it (`isProjectInit_dropLast`). So the
project is created in the result if it is created in a part, and it is
created in front exactly if no part does (`selection_runnable`).
-/
import GridScript.Proofs.Script.Parts
import GridScript.Proofs.Script.Phrases
import GridScript.Proofs.Text.Utf8
import GridScript.Script.Selection

namespace GridScript.Script

open Text (EndsLine CutsCharacter byteLength allBlank lines closed)

-- ============================================================ the range

/-- The range of bytes holds the second text, between the other two. -/
structure Selects (script : Text) (start stop : Nat)
    (before selected after : Text) : Prop where
  parts : script = before ++ (selected ++ after)
  begins : byteLength before = start
  ends : byteLength before + byteLength selected = stop

/-- The range of bytes is reversed, out of bounds, or cuts a character. -/
def Misplaced (script : Text) (start stop : Nat) : Prop :=
  stop < start ∨ byteLength script < stop ∨ CutsCharacter script start
    ∨ CutsCharacter script stop

section Range

variable {script before selected after : Text} {start stop : Nat}

theorem Selects.cutRange?
    (h : Selects script start stop before selected after) :
    cutRange? script start stop = some (before, selected) := by
  obtain ⟨rfl, rfl, rfl⟩ := h
  have hfirst : Text.cutAtByte? (byteLength before)
      (before ++ (selected ++ after))
      = some (before, selected ++ after) :=
        Text.cutAtByte?_eq_some_iff.2 ⟨rfl, rfl⟩
  have hsecond : Text.cutAtByte? (byteLength selected) (selected ++ after)
      = some (selected, after) := Text.cutAtByte?_eq_some_iff.2 ⟨rfl, rfl⟩
  unfold Script.cutRange?
  rw [if_neg (by omega), Nat.add_sub_cancel_left, hfirst]
  simp only [Option.bind_eq_bind, Option.bind_some, hsecond]
  rfl

theorem exists_selects_of_cutRange?
    (h : Script.cutRange? script start stop = some (before, selected)) :
    ∃ after, Selects script start stop before selected after := by
  unfold Script.cutRange? at h
  split at h
  case isTrue => cases h
  case isFalse horder =>
      obtain ⟨⟨before', rest⟩, hfirst, h⟩ := Option.bind_eq_some_iff.1 h
      obtain ⟨⟨selected', after⟩, hsecond, h⟩ := Option.bind_eq_some_iff.1 h
      cases h
      obtain ⟨rfl, hstart⟩ := Text.cutAtByte?_eq_some_iff.1 hfirst
      obtain ⟨rfl, hlength⟩ := Text.cutAtByte?_eq_some_iff.1 hsecond
      exact ⟨after, rfl, hstart, by omega⟩

theorem Selects.not_misplaced
    (h : Selects script start stop before selected after) :
    ¬Misplaced script start stop := by
  obtain ⟨rfl, rfl, rfl⟩ := h
  rintro (hreversed | hbeyond | hcuts | hcuts)
  · omega
  · simp only [Text.byteLength_append] at hbeyond
    omega
  · exact Text.not_cutsCharacter _ _ hcuts
  · rw [← Text.byteLength_append, ← List.append_assoc] at hcuts
    exact Text.not_cutsCharacter _ _ hcuts

/-- A range that is in place selects a text. -/
theorem exists_selects (h : ¬Misplaced script start stop) :
    ∃ before selected after,
      Selects script start stop before selected after := by
  unfold Misplaced at h
  simp only [not_or, Nat.not_lt] at h
  obtain ⟨horder, hbound, hstart, hstop⟩ := h
  have hcut : ∀ n ≤ byteLength script, ¬CutsCharacter script n →
      ∃ front back, script = front ++ back ∧ byteLength front = n := by
    intro n hn hinside
    cases hfound : Text.cutAtByte? n script with
    | none =>
        rcases Text.cutAtByte?_eq_none hfound with hbeyond | hcuts
        · omega
        · exact absurd hcuts hinside
    | some parts =>
        exact ⟨parts.1, parts.2, Text.cutAtByte?_eq_some_iff.1 hfound⟩
  obtain ⟨before, rest, hbefore, hfirst⟩ :=
    hcut start (Nat.le_trans horder hbound) hstart
  obtain ⟨front, after, hfront, hsecond⟩ := hcut stop hbound hstop
  obtain ⟨selected, rfl⟩ : before <+: front :=
    Text.prefix_of_byteLength_le ⟨rest, hbefore.symm⟩ ⟨after, hfront.symm⟩
      (by omega)
  refine ⟨before, selected, after, ?_, hfirst, ?_⟩
  · rw [hfront, List.append_assoc]
  · rw [← hsecond, Text.byteLength_append]

theorem cutRange?_eq_none_iff :
    Script.cutRange? script start stop = none
      ↔ Misplaced script start stop := by
  cases hcut : Script.cutRange? script start stop with
  | none =>
      refine iff_of_true rfl (Classical.byContradiction fun hplaced => ?_)
      obtain ⟨before, selected, after, hselects⟩ := exists_selects hplaced
      rw [hselects.cutRange?] at hcut
      cases hcut
  | some parts =>
      obtain ⟨after, hselects⟩ := exists_selects_of_cutRange? hcut
      exact iff_of_false nofun hselects.not_misplaced

end Range

-- ============================================================ the header

/-- What stands above a selection and above the marker line. -/
def above (script before : Text) : Text := before.take (userPart script).length

section Header

variable {script before user m after : Text}

/-- Below the marker line the header is the user's part. -/
theorem selectionHeader_of_below
    (h : cutAtMarker? script = some (user, m, after))
    (hbelow : byteLength (user ++ m) ≤ byteLength before) :
    selectionHeader script before = user := by
  rw [Text.byteLength_append] at hbelow
  unfold selectionHeader
  simp only [h]
  exact if_pos hbelow

/-- Elsewhere the header is the imports above. -/
theorem selectionHeader_of_above (hbefore : before <+: script)
    (habove : ∀ user m after, cutAtMarker? script = some (user, m, after) →
      byteLength before < byteLength (user ++ m)) :
    selectionHeader script before = importLines (above script before) := by
  unfold selectionHeader above userPart
  cases hcut : cutAtMarker? script with
  | none => simp only [List.take_of_length_le hbefore.length_le]
  | some parts =>
      obtain ⟨user, m, after⟩ := parts
      have huser : user <+: script :=
        ⟨m ++ after, (cutAtMarker?_eq_some hcut).1.symm⟩
      have hnot := habove user m after hcut
      rw [Text.byteLength_append] at hnot
      simp only
      rw [if_neg (Nat.not_le_of_lt hnot)]
      split
      case isTrue hless =>
          have hprefix := Text.prefix_of_byteLength_le hbefore huser hless
          rw [List.take_of_length_le hprefix.length_le]
      case isFalse hmore =>
          obtain ⟨rest, rfl⟩ :=
            Text.prefix_of_byteLength_le huser hbefore (by omega)
          rw [List.take_left]

theorem endsLine_selectionHeader (script before : Text) :
    EndsLine (selectionHeader script before) := by
  unfold selectionHeader
  split
  next => exact Text.endsLine_unlines _
  next user m after hcut =>
      split
      next => exact (cutAtMarker?_eq_some hcut).2
      next => split <;> exact Text.endsLine_unlines _

end Header

-- =========================================================== the project

/-- A line that creates the project does so without a carriage return at its
end. -/
theorem isProjectInit_dropLast {line : Text} (h : isProjectInit line = true) :
    isProjectInit (Text.dropLast '\r' line) = true := by
  rcases Text.dropLast_cases '\r' line with hsame | ⟨l, rfl, hl⟩
  · rwa [hsame]
  · rw [hl]
    -- a carriage return is a blank at the end
    have htrailed : Trailed (tokens l) (tokens (l ++ ['\r'])) :=
      ⟨['\r'], by decide, tokens_append_blank l (by decide)⟩
    unfold isProjectInit at h ⊢
    cases hbinding : eatBinding? (tokens (l ++ ['\r'])) with
    | none =>
        rw [hbinding] at h
        cases h
    | some found =>
        obtain ⟨name, rest⟩ := found
        obtain ⟨rest₁, hname, h₁⟩ := htrailed.eatBinding? hbinding
        rw [hbinding] at h
        rw [hname]
        simp only [Bool.and_eq_true] at h ⊢
        refine ⟨h.1, ?_⟩
        obtain ⟨last, hlast⟩ := Option.isSome_iff_exists.1 h.2
        obtain ⟨opening, hopening, hmark⟩ := Option.bind_eq_some_iff.1 hlast
        obtain ⟨call, hcall, rfl⟩ := Option.map_eq_some_iff.1 hopening
        obtain ⟨rest₂, hkeyword, h₂⟩ := h₁.eatKeyword? hcall
        obtain ⟨rest₃, hfound, -⟩ := h₂.skipSpaces.eatMark? (by decide) hmark
        rw [hkeyword, Option.map_some, Option.bind_some, hfound]
        rfl

/-- A text creates the project. -/
def Initializes (t : Text) : Prop :=
  ∃ line ∈ lines t, isProjectInit line = true

theorem initializes_append {a b : Text} (h : EndsLine a) :
    Initializes (a ++ b) ↔ Initializes a ∨ Initializes b := by
  unfold Initializes
  simp only [Text.lines_append h, List.mem_append, or_and_right, exists_or]

/-- To close a text leaves the lines that create the project. -/
theorem Initializes.closed {t : Text} (h : Initializes t) :
    Initializes (closed t) := by
  obtain ⟨line, hline, hinit⟩ := h
  induction t using Text.line_induction with
  | last t hno =>
      by_cases hnil : t = []
      · rw [hnil] at hline
        cases hline
      · rw [Text.lines_of_no_feed hno hnil, List.mem_singleton] at hline
        rw [Text.closed_of_no_feed hno hnil]
        exact ⟨_, by rw [Text.lines_line hno]; exact List.mem_cons_self,
          isProjectInit_dropLast (hline ▸ hinit)⟩
  | line l rest hl ih =>
      rw [Text.lines_line hl, List.mem_cons] at hline
      rw [Text.closed_line]
      unfold Initializes
      rw [Text.lines_line hl]
      rcases hline with rfl | hline
      · exact ⟨_, List.mem_cons_self, hinit⟩
      · obtain ⟨found, hfound, hcreates⟩ := ih hline
        exact ⟨found, List.mem_cons_of_mem _ hfound, hcreates⟩

theorem initializes_projectInit : Initializes (projectInit ++ ['\n']) :=
  ⟨projectInit, by decide, by decide +kernel⟩

-- ============================================================= selections

/-- The result runs the selection behind a header and perhaps a line that
creates the project. -/
structure Runs (script before selected header init result : Text) : Prop where
  /-- The selection is all there, and the result has a feed at its end. -/
  parts : ∃ feed, result = header ++ init ++ selected ++ feed
    ∧ (feed = [] ∨ feed = ['\n'])
  closes : result.getLast? = some '\n'
  /-- What stands in front of the selection ends a line. -/
  begins : EndsLine (header ++ init)
  /-- From the end of the marker line on the header is the user's part. -/
  below : ∀ user m after, cutAtMarker? script = some (user, m, after) →
    byteLength (user ++ m) ≤ byteLength before → header = user
  /-- Elsewhere it is the imports above the selection and the marker. -/
  elsewhere : (∀ user m after, cutAtMarker? script = some (user, m, after) →
      byteLength before < byteLength (user ++ m)) →
    header = importLines (above script before)
  injects : init = [] ∨ init = projectInit ++ ['\n']
  /-- The project is created in front only if nothing else creates it. -/
  injects_iff : init ≠ [] ↔ ¬Initializes header ∧ ¬Initializes selected
  initializes : Initializes result

/-- The line in front of a selection that creates the project, unless the
header or the selection does. -/
def injected (header selected : Text) : Text :=
  if (lines header ++ lines selected).any isProjectInit then []
  else projectInit ++ ['\n']

section Selected

variable {script before selected after header : Text} {start stop : Nat}

theorem any_isProjectInit_iff :
    (lines header ++ lines selected).any isProjectInit = true
      ↔ Initializes header ∨ Initializes selected := by
  unfold Initializes
  rw [List.any_append, Bool.or_eq_true, List.any_eq_true, List.any_eq_true]

theorem injected_cases :
    (injected header selected = []
      ∧ (Initializes header ∨ Initializes selected))
      ∨ (injected header selected = projectInit ++ ['\n']
        ∧ ¬(Initializes header ∨ Initializes selected)) := by
  unfold injected
  split
  case isTrue hany => exact Or.inl ⟨rfl, any_isProjectInit_iff.1 hany⟩
  case isFalse hnone =>
      exact Or.inr ⟨rfl, fun h => hnone (any_isProjectInit_iff.2 h)⟩

theorem endsLine_injected : EndsLine (injected header selected) := by
  rcases @injected_cases selected header with ⟨hinit, -⟩ | ⟨hinit, -⟩
  · exact Or.inl hinit
  · exact Or.inr (by rw [hinit, List.getLast?_concat])

/-- With the injected line the project is created in any case. -/
theorem initializes_injected (h : EndsLine header) :
    Initializes (header ++ injected header selected ++ selected) := by
  rw [initializes_append (h.append endsLine_injected), initializes_append h]
  rcases @injected_cases selected header with ⟨-, hparts⟩ | ⟨hinit, -⟩
  · exact hparts.imp Or.inl id
  · exact Or.inl (Or.inr (hinit ▸ initializes_projectInit))

theorem selectionScript?_eq
    (h : Selects script start stop before selected after) :
    selectionScript? script start stop
      = if allBlank selected then none
        else some (closed (selectionHeader script before
          ++ injected (selectionHeader script before) selected
          ++ selected)) := by
  unfold selectionScript?
  rw [h.cutRange?, Option.bind_eq_bind, Option.bind_some]
  simp only [Text.closed_of_endsLine (endsLine_selectionHeader script before)]
  rfl

/-- The script that is made of a selection runs it. -/
theorem runs_selectionHeader
    (h : Selects script start stop before selected after)
    (hblank : allBlank selected = false) :
    Runs script before selected (selectionHeader script before)
      (injected (selectionHeader script before) selected)
      (closed (selectionHeader script before
        ++ injected (selectionHeader script before) selected
        ++ selected)) := by
  have hne : selected ≠ [] := by
    rintro rfl
    cases hblank
  have hheader := endsLine_selectionHeader script before
  refine ⟨?_, ?_, hheader.append endsLine_injected,
    fun user m after' => selectionHeader_of_below,
    selectionHeader_of_above ⟨selected ++ after, h.parts.symm⟩,
    injected_cases.imp And.left And.left,
    ?_, (initializes_injected hheader).closed⟩
  · generalize selectionHeader script before ++ _ ++ selected = result
    rcases Text.closed_cases result with hsame | ⟨-, -, hfeed⟩
    · exact ⟨[], by rw [hsame, List.append_nil], Or.inl rfl⟩
    · exact ⟨['\n'], hfeed, Or.inr rfl⟩
  · exact Text.getLast?_closed fun hnil =>
      hne (List.append_eq_nil_iff.1 hnil).2
  -- something is injected exactly if neither the header nor the selection
  -- initializes
  · rw [← not_or]
    rcases @injected_cases selected (selectionHeader script before) with
      ⟨hinit, hparts⟩ | ⟨hinit, hparts⟩
    · exact iff_of_false (fun hinjects => hinjects hinit)
        (fun hnone => hnone hparts)
    · exact iff_of_true (by rw [hinit]; simp) hparts

end Selected

/-- A selection gives no script exactly if the range is no range of the
script or holds only blanks. Otherwise the script runs what the range
selects. -/
theorem selection_runnable (script : Text) (start stop : Nat) :
    (selectionScript? script start stop = none
        ↔ Misplaced script start stop
          ∨ ∃ before selected after,
            Selects script start stop before selected after
            ∧ allBlank selected = true)
      ∧ ∀ result, selectionScript? script start stop = some result →
        ∃ before selected after header init,
          Selects script start stop before selected after
            ∧ Runs script before selected header init result := by
  by_cases hplaced : Misplaced script start stop
  · have hnone : selectionScript? script start stop = none := by
      unfold selectionScript?
      rw [cutRange?_eq_none_iff.2 hplaced]
      rfl
    refine ⟨iff_of_true hnone (Or.inl hplaced), fun result hresult => ?_⟩
    rw [hnone] at hresult
    cases hresult
  · obtain ⟨before, selected, after, hselects⟩ := exists_selects hplaced
    rw [selectionScript?_eq hselects]
    cases hblank : allBlank selected with
    | true =>
        exact ⟨iff_of_true rfl
          (Or.inr ⟨before, selected, after, hselects, hblank⟩), nofun⟩
    | false =>
        refine ⟨iff_of_false nofun ?_, ?_⟩
        · rintro (hmisplaced | ⟨before', selected', after', hselects',
            hblank'⟩)
          · exact hplaced hmisplaced
          -- there is one way to cut the script at the two ends
          · have hsame := hselects'.cutRange?.symm.trans hselects.cutRange?
            cases hsame
            rw [hblank] at hblank'
            cases hblank'
        · intro result hresult
          cases hresult
          exact ⟨before, selected, after, _, _, hselects,
            runs_selectionHeader hselects hblank⟩

/-- A character of two bytes in front of calls on two lines. -/
def midway : Text := "import numpy as np\r\nx = 'é'; f(x)\ng(x)".toList

theorem selection_runnable_midway :
    Misplaced midway 26 39 ∧ selectionScript? midway 26 39 = none
      ∧ ∃ before selected after header init,
        Selects midway 30 39 before selected after
        ∧ Runs midway before selected header init
          "import numpy as np\nproj = Project()\nf(x)\ng(x)\n".toList := by
  have hinside : Misplaced midway 26 39 :=
    Or.inr
      (Or.inr
        (Or.inl ⟨"import numpy as np\r\nx = '".toList, 'é',
          "'; f(x)\ng(x)".toList, by decide, by decide, by decide⟩))
  have hscript : selectionScript? midway 30 39
      = some "import numpy as np\nproj = Project()\nf(x)\ng(x)\n".toList := by
        decide +kernel
  exact ⟨hinside, (selection_runnable midway 26 39).1.2 (Or.inl hinside),
    (selection_runnable midway 30 39).2 _ hscript⟩

end GridScript.Script
