/-
The two parts of a script, as laws of `compose`: the user's part comes
back from a composed script, what was generated is what stands behind the
marker, and composing again replaces what was generated before.

All of them rest on one fact: the marker line that `compose` writes is
the first one of its result. No piece of a user's part is a marker line,
and closing the last line cannot make one, because a line is told to be
the marker without looking at its feed.
-/
import GridScript.Proofs.Text.Lines
import GridScript.Proofs.Text.Trim
import GridScript.Script.Parts

namespace GridScript.Script

open Text (EndsLine pieces closed)

-- ===================================================== the marker line

/-- The feed at the end of a line does not count. -/
theorem isMarker_snoc_feed {l : Text} (h : '\n' ∉ l) :
    isMarker (l ++ ['\n']) = isMarker l := by
  unfold isMarker
  rw [Text.dropLast_snoc, Text.dropLast_of_not_mem h]

theorem no_feed_marker : '\n' ∉ marker := by
  unfold marker
  decide

/-- The marker line, with its feed, is the marker. -/
theorem isMarker_marker : isMarker (marker ++ ['\n']) = true := by
  have hlast : marker.getLast? = some '-' := rfl
  rw [isMarker_snoc_feed no_feed_marker]
  unfold isMarker
  rw [Text.dropLast_of_not_mem no_feed_marker,
    Text.trimEnd_of_getLast hlast (by decide)]
  exact beq_self_eq_true marker

theorem isMarker_nil : isMarker [] = false := rfl

/-- No line of the text is the marker. -/
def Unmarked (t : Text) : Prop := ∀ p ∈ pieces t, isMarker p = false

theorem unmarked_nil : Unmarked [] := fun p hp => by cases hp

/-- One line without a feed is unmarked if it is not the marker. -/
theorem unmarked_of_no_feed {t : Text} (hno : '\n' ∉ t)
    (h : isMarker t = false) :
    Unmarked t := by
  by_cases hnil : t = []
  · rw [hnil]
    exact unmarked_nil
  · intro p hp
    rw [Text.pieces_of_no_feed hno hnil, List.mem_singleton] at hp
    rw [hp]
    exact h

theorem Unmarked.isMarker {t : Text} (h : Unmarked t) (hno : '\n' ∉ t) :
    isMarker t = false := by
  by_cases hnil : t = []
  · rw [hnil]
    exact isMarker_nil
  · refine h t ?_
    rw [Text.pieces_of_no_feed hno hnil]
    exact List.mem_singleton_self t

/-- A line and a text behind it are unmarked one by one. -/
theorem unmarked_line {l rest : Text} (h : '\n' ∉ l) :
    Unmarked (l ++ '\n' :: rest)
      ↔ Script.isMarker l = false ∧ Unmarked rest := by
  unfold Unmarked
  rw [Text.pieces_line h, List.forall_mem_cons, isMarker_snoc_feed h]

/-- Closing a text makes no marker line. -/
theorem Unmarked.closed {t : Text} (h : Unmarked t) : Unmarked (closed t) := by
  induction t using Text.line_induction with
  | last t hno =>
      by_cases hnil : t = []
      · rw [hnil]
        exact unmarked_nil
      · rw [Text.closed_of_no_feed hno hnil, unmarked_line hno]
        exact ⟨h.isMarker hno, unmarked_nil⟩
  | line l rest hl ih =>
      obtain ⟨hmark, hrest⟩ := (unmarked_line hl).1 h
      rw [Text.closed_line, unmarked_line hl]
      exact ⟨hmark, ih hrest⟩

-- ===================================================== the cut, by line

/-- A text without a feed is cut only if it is the marker. -/
theorem cutAtMarker?_of_no_feed {t : Text} (hno : '\n' ∉ t) :
    cutAtMarker? t = if isMarker t then some ([], t, []) else none := by
  by_cases hnil : t = []
  · rw [hnil]
    rfl
  · unfold cutAtMarker?
    rw [Text.pieces_of_no_feed hno hnil]
    cases hmark : isMarker t <;> simp [hmark]

/-- A text is cut at its first line, or else behind it. -/
theorem cutAtMarker?_line {l : Text} (hl : '\n' ∉ l) (rest : Text) :
    cutAtMarker? (l ++ '\n' :: rest)
      = if isMarker l then some ([], l ++ ['\n'], rest)
        else
          (cutAtMarker? rest).map fun (user, m, after) =>
            (l ++ '\n' :: user, m, after) := by
  unfold cutAtMarker?
  rw [Text.pieces_line hl]
  cases hmark : isMarker l with
  | true => simp [isMarker_snoc_feed hl, hmark, Text.flatten_pieces]
  | false =>
      simp only [isMarker_snoc_feed hl, hmark, Bool.not_false,
        List.dropWhile_cons_of_pos, List.takeWhile_cons_of_pos,
        Bool.false_eq_true, if_false]
      cases List.dropWhile (fun p => !isMarker p) (pieces rest) <;> simp

/-- A text is cut at the marker line behind a closed part without one. -/
theorem cutAtMarker?_append {user : Text} (hend : EndsLine user)
    (h : Unmarked user) (after : Text) :
    cutAtMarker? (user ++ (marker ++ '\n' :: after))
      = some (user, marker ++ ['\n'], after) := by
  induction user using Text.line_induction with
  | last user hno =>
      have hmark : isMarker marker = true := by
        rw [← isMarker_snoc_feed no_feed_marker]
        exact isMarker_marker
      rw [hend.eq_nil hno, List.nil_append,
        cutAtMarker?_line no_feed_marker, hmark]
      rfl
  | line l rest hl ih =>
      obtain ⟨hmark, hrest⟩ := (unmarked_line hl).1 h
      rw [List.append_assoc, List.cons_append, cutAtMarker?_line hl, hmark,
        ih hend.tail hrest]
      rfl

/-- A text is what is above its marker line, this line, and what is below
it. What is above ends a line. -/
theorem cutAtMarker?_eq_some {t user m after : Text}
    (h : cutAtMarker? t = some (user, m, after)) :
    t = user ++ (m ++ after) ∧ EndsLine user := by
  induction t using Text.line_induction generalizing user with
  | last t hno =>
      rw [cutAtMarker?_of_no_feed hno] at h
      split at h
      case isFalse => cases h
      case isTrue =>
          cases h
          exact ⟨by simp, Or.inl rfl⟩
  | line l rest hl ih =>
      rw [cutAtMarker?_line hl] at h
      split at h
      case isTrue =>
          cases h
          exact ⟨by simp, Or.inl rfl⟩
      case isFalse =>
          obtain ⟨⟨user', m', after'⟩, hcut, heq⟩ := Option.map_eq_some_iff.1 h
          cases heq
          obtain ⟨hrest, hend⟩ := ih hcut
          exact ⟨by rw [hrest, List.append_assoc]; rfl, hend.line l⟩

/-- Whatever a text is, its user's part has no marker line. -/
theorem unmarked_userPart (t : Text) : Unmarked (userPart t) := by
  induction t using Text.line_induction with
  | last t hno =>
      unfold userPart
      rw [cutAtMarker?_of_no_feed hno]
      cases hmark : isMarker t with
      | true => exact unmarked_nil
      | false => exact unmarked_of_no_feed hno hmark
  | line l rest hl ih =>
      unfold userPart at ih ⊢
      rw [cutAtMarker?_line hl]
      cases hmark : isMarker l with
      | true => exact unmarked_nil
      | false =>
          cases hcut : cutAtMarker? rest with
          | none =>
              rw [hcut] at ih
              exact (unmarked_line hl).2 ⟨hmark, ih⟩
          | some cut =>
              rw [hcut] at ih
              exact (unmarked_line hl).2 ⟨hmark, ih⟩

-- ===================================================== laws of compose

/-- What `compose` writes when there is anything to write. -/
theorem compose_eq {script generated : Text}
    (h : script ≠ [] ∨ generated ≠ []) :
    compose script generated
      = closed (userPart script) ++ (marker ++ '\n' :: closed generated) := by
  unfold compose
  rw [if_neg]
  · rw [List.append_assoc]
  · simp only [Bool.and_eq_true, List.isEmpty_iff, not_and]
    intro hscript hgenerated
    rcases h with h | h
    · exact h hscript
    · exact h hgenerated

/-- A composed script is cut where `compose` put the marker. -/
theorem cutAtMarker?_compose {script generated : Text}
    (h : script ≠ [] ∨ generated ≠ []) :
    cutAtMarker? (compose script generated)
      = some
        (closed (userPart script), marker ++ ['\n'], closed generated) := by
  rw [compose_eq h]
  exact cutAtMarker?_append (Text.endsLine_closed _)
    (unmarked_userPart script).closed _

/-- The user's part comes back, with its last line closed. -/
theorem userPart_compose {script generated : Text}
    (h : script ≠ [] ∨ generated ≠ []) :
    userPart (compose script generated) = closed (userPart script) := by
  unfold userPart
  rw [cutAtMarker?_compose h]
  rfl

/-- The generated part comes back, less its declarations. -/
theorem generatedPart_compose {script generated : Text}
    (h : script ≠ [] ∨ generated ≠ []) :
    generatedPart (compose script generated)
      = withoutDeclarations (closed generated) := by
  unfold generatedPart
  rw [cutAtMarker?_compose h]

theorem compose_ne_nil {script generated : Text}
    (h : script ≠ [] ∨ generated ≠ []) :
    compose script generated ≠ [] := by
  rw [compose_eq h]
  simp

/-- Composing replaces what was composed before. -/
theorem compose_compose {script generated : Text} (before : Text)
    (h : script ≠ [] ∨ generated ≠ []) :
    compose (compose script before) generated = compose script generated := by
  by_cases hfirst : script ≠ [] ∨ before ≠ []
  · rw [compose_eq (Or.inl (compose_ne_nil hfirst)), compose_eq h,
      userPart_compose hfirst, Text.closed_closed]
  · -- neither was there before, so nothing has been composed yet
    simp only [not_or, ne_eq, Decidable.not_not] at hfirst
    rw [hfirst.1, hfirst.2]
    rfl

theorem preamble_ne_nil (helperModule : Text) :
    preamble helperModule ≠ [] := by
  unfold preamble
  simp only [ne_eq, List.append_eq_nil_iff, List.cons_ne_self, and_false,
    not_false_eq_true]

/-- A new script is not empty. -/
theorem newScript_ne_nil (helperModule : Text) : newScript helperModule ≠ [] :=
  compose_ne_nil (Or.inl (preamble_ne_nil helperModule))

-- ================================================================= lenses

/-- The marker that `compose` writes is the first one of its result: what
stands above it is the closed user's part, in which no line is the marker,
and what stands below it is the closed generated part. So each part is read
as it was put in, closed, and of two parts that are put in one after the
other the later one counts. -/
theorem compose_lens {script generated : Text} (before : Text)
    (h : script ≠ [] ∨ generated ≠ []) :
    (compose script generated
          = closed (userPart script) ++ (marker ++ '\n' :: closed generated)
        ∧ Unmarked (closed (userPart script)))
      ∧ cutAtMarker? (compose script generated)
          = some (closed (userPart script), marker ++ ['\n'], closed generated)
      ∧ userPart (compose script generated) = closed (userPart script)
      ∧ generatedPart (compose script generated)
        = withoutDeclarations (closed generated)
      ∧ compose (compose script before) generated = compose script generated :=
  ⟨⟨compose_eq h, (unmarked_userPart script).closed⟩, cutAtMarker?_compose h,
    userPart_compose h, generatedPart_compose h, compose_compose before h⟩

/-- A script with two marker lines, the first with blanks and a carriage
return behind it, and no feed at the end. -/
def twiceMarked : Text :=
  "a = 1\r\n".toList ++ marker ++ " \r\nf()\n".toList ++ marker

/-- A generated part that begins with a marker line. -/
def markedLog : Text := marker ++ "\nt = proj.table('t')\r\nt.clear()".toList

theorem compose_lens_twiceMarked :
    (twiceMarked ≠ [] ∨ markedLog ≠ [])
      ∧ userPart (compose twiceMarked markedLog) = "a = 1\r\n".toList
      ∧ generatedPart (compose twiceMarked markedLog)
        = marker ++ "\nt.clear()\n".toList
      ∧ compose (compose twiceMarked marker) markedLog
        = compose twiceMarked markedLog := by
  have h : twiceMarked ≠ [] ∨ markedLog ≠ [] := Or.inl (by decide)
  obtain ⟨-, -, huser, hgenerated, htwice⟩ := compose_lens marker h
  refine ⟨h, huser.trans ?_, hgenerated.trans ?_, htwice⟩ <;> decide +kernel

end GridScript.Script
