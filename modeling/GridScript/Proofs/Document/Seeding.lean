/-
What a script that was edited by hand is taken back for. The history of a
script is its generated part without the declarations of local names, for
those are made anew with the rest. So a name that a hand has given to a
table in a declaration of its own is forgotten, and what stands under it
goes to whatever the name stands for without it.

`contexts_ofScript_iff` says exactly when nothing is moved: each header's
name goes on standing for its table, and no body goes on behind a
declaration that has ended it.
-/
import GridScript.History
import GridScript.Proofs.Script.Contexts
import GridScript.Proofs.Text.Lines

namespace GridScript

open Script

-- ================================================================ pieces

namespace Text

/-- Pieces that are left of a text are the pieces of what they make up. -/
theorem pieces_flatten_filter (q : Text → Bool) (t : Text) :
    pieces ((pieces t).filter q).flatten = (pieces t).filter q := by
  induction t using line_induction with
  | last t hno =>
      by_cases hnil : t = []
      · subst hnil
        rfl
      · rw [pieces_of_no_feed hno hnil]
        cases hq : q t with
        | true => simp [hq, pieces_of_no_feed hno hnil]
        | false => simp [hq]
  | line l rest hl ih =>
      rw [pieces_line hl]
      cases hq : q (l ++ ['\n']) with
      | true =>
          rw [List.filter_cons_of_pos hq, List.flatten_cons, List.append_assoc,
            List.singleton_append, pieces_line hl, ih]
      | false => rw [List.filter_cons_of_neg (by simp [hq]), ih]

end Text

-- ================================================================ history

namespace History

/-- The history of a script is what is left of its generated part without
declarations, less the blank lines at the end. -/
theorem commands_of_cut {t user m below : Text}
    (h : cutAtMarker? t = some (user, m, below)) :
    (ofScript t).commands = dropBlankEnd (keptLines (Text.pieces below)) := by
  unfold ofScript ofGenerated generatedPart
  rw [h]
  show dropBlankEnd
      (Text.lines (withoutDeclarations (withoutDeclarations below))) = _
  unfold withoutDeclarations Text.lines
  rw [Text.pieces_flatten_filter, Text.pieces_flatten_filter,
    List.filter_filter]
  simp only [Bool.and_self]
  rfl

theorem dropBlankEnd_cons (l : Text) (ls : List Text) :
    dropBlankEnd (l :: ls)
      = if (dropBlankEnd ls).isEmpty && Text.allBlank l then []
        else l :: dropBlankEnd ls := rfl

/-- Blank lines at the end do not go on with anything. -/
theorem resumes_dropBlankEnd (ls : List Text) :
    resumes (dropBlankEnd ls) = resumes ls := by
  induction ls with
  | nil => rfl
  | cons l ls ih =>
      rw [dropBlankEnd_cons]
      split
      case isTrue hend =>
          rw [Bool.and_eq_true, List.isEmpty_iff] at hend
          rw [resumes_cons, hend.2, if_pos rfl, ← ih, hend.1]
      case isFalse => rw [resumes_cons, resumes_cons, ih]

theorem cutBody_dropBlankEnd (ls : List Text) :
    (cutBody (dropBlankEnd ls)).1 = (cutBody ls).1 := by
  induction ls with
  | nil => rfl
  | cons l ls ih =>
      rw [dropBlankEnd_cons]
      split
      case isTrue hend =>
          -- no body goes on into the blank end
          rw [Bool.and_eq_true, List.isEmpty_iff] at hend
          have hnone : resumes (l :: ls) = false := by
            rw [resumes_cons, hend.2,
              if_pos rfl, ← resumes_dropBlankEnd, hend.1]
            rfl
          rw [(cutBody_eq_nil_iff _).2 hnone]
          rfl
      case isFalse =>
          -- a line that stays is read alike with the blank end and without
          rw [cutBody, cutBody, resumes_dropBlankEnd]
          cases hblank : Text.allBlank l with
          | true =>
              cases hresumes : resumes ls with
              | true => exact ih
              | false => rfl
          | false =>
              by_cases hwidth : indentWidth l = 0
              · simp only [hwidth, Bool.false_eq_true, if_false, if_true]
              · simp only [hwidth, Bool.false_eq_true, if_false, ih]

/-- Nor do they belong to a context. -/
theorem contextsFrom_dropBlankEnd (gs : List Giving) (ls : List Text) :
    contextsFrom gs (dropBlankEnd ls) = contextsFrom gs ls := by
  induction ls generalizing gs with
  | nil => rfl
  | cons l ls ih =>
      rw [dropBlankEnd_cons]
      split
      case isTrue hend =>
          rw [Bool.and_eq_true, List.isEmpty_iff] at hend
          rw [contextsFrom_inner (Or.inl hend.2), ← ih, hend.1]
      case isFalse =>
          cases hheader : header? (tokens l) with
          | none =>
              rw [contextsFrom_line hheader, contextsFrom_line hheader, ih]
          | some h =>
              rw [contextsFrom_header hheader, contextsFrom_header hheader, ih]
              unfold takeBody
              simp only [cutBody_dropBlankEnd]

end History

-- ============================================================ the theorem

/-- The history of a script has the contexts of its generated part exactly
if, without the declarations, each header's name goes on standing for its
table and no body goes on behind a declaration. -/
theorem contexts_ofScript_iff {t user m below : Text}
    (hcut : cutAtMarker? t = some (user, m, below)) :
    contextsIn (History.ofScript t).commands = contextsIn (Text.lines below)
      ↔ ∀ before p after, Text.pieces below = before ++ p :: after →
        ∀ h, header? (tokens (Text.unterminated p)) = some h →
          h.table.told (givings (keptLines before))
              = h.table.told (givings (before.map Text.unterminated))
            ∧ StaysClosed after := by
  rw [History.commands_of_cut hcut, contextsIn_eq, contextsIn_eq,
    History.contextsFrom_dropBlankEnd]
  exact contextsFrom_keptLines [] [] (Text.pieces below)

/-- A script with a name of its own for a table. -/
def renamed : Text :=
  marker
    ++ "\nt = proj.table('x')\nwith table_context(t):\n    a0 = 1\n".toList

theorem contexts_ofScript_renamed :
    let below :=
  "t = proj.table('x')\nwith table_context(t):\n    a0 = 1\n".toList
    cutAtMarker? renamed = some ([], marker ++ ['\n'], below)
      ∧ contextsIn (History.ofScript renamed).commands
        ≠ contextsIn (Text.lines below) := by
  intro below
  have hcut : cutAtMarker? renamed = some ([], marker ++ ['\n'], below) := by
    decide +kernel
  refine ⟨hcut, fun hsame => ?_⟩
  have hstays :=
    (contexts_ofScript_iff hcut).1 hsame ["t = proj.table('x')\n".toList]
    "with table_context(t):\n".toList ["    a0 = 1\n".toList] (by decide)
    ⟨.name "t".toList, .body⟩ (by decide +kernel)
  have htable := hstays.1
  revert htable
  decide +kernel

end GridScript
