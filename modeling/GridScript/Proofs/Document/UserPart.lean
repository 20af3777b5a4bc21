/-
The user's part of a script belongs to the user. Whatever commands are
recorded, undone or executed, and whatever runs are begun and report their
results, the text above the marker stays as it was, but for one line feed
at its end, which it is given once if it does not end a line.

The marker that is found in a script is the first one. A user's part holds
none, and what is generated stands behind it, so that lines which look like
the marker, in what is generated or in what was there before, do not move
the cut (`Script.cutAtMarker?_append`).
-/
import GridScript.Proofs.Document.Results
import GridScript.Proofs.Document.Steps

namespace GridScript

open Script (userPart compose)
open Text (closed EndsLine)

namespace Document

-- ================================================================ work

/-- What is done to a document other than to edit its script by hand. The
counters are those of all documents as they stand at the time, and a result
may come with any ticket. -/
inductive Work where
  | action (a : Action)
  | beginRun (cs : RunCounters)
  | result (cs : RunCounters) (t : RunTicket)
    (result : Except RunError RunOutput)

/-- The document after that, also after it is refused. -/
def work (d : Document) : Work → Document
  | .action a => d.perform a
  | .beginRun cs => (d.beginRun cs).2.1
  | .result cs t result => (d.applyResult cs t result).2

/-- The document after one thing and then another. -/
def workAll (d : Document) (ws : List Work) : Document := ws.foldl work d

/-- A script that is left as it was or composed anew. -/
def Rewritten (s s' : Text) : Prop :=
  s' = s ∨ ∃ generated, s' = compose s generated

theorem script_abort (d : Document) : d.abort.script = d.script := by
  unfold Document.abort
  split <;> rfl

theorem rewritten_extended (d : Document) (t : Transaction) :
    Rewritten d.script (d.extended t).script := Or.inr ⟨_, rfl⟩

/-- The script is composed when a transaction is committed, and else it is
left alone. -/
theorem rewritten_perform (d : Document) (a : Action) :
    Rewritten d.script (d.perform a).script := by
  cases a with
  | begin kind =>
      show Rewritten d.script (d.begin kind).2.script
      rcases d.begin_cases kind with ⟨-, hbegin⟩ | ⟨-, hbegin⟩
      · exact Or.inl (by rw [hbegin])
      · exact Or.inl (by rw [hbegin]; rfl)
  | record c =>
      show Rewritten d.script (d.record c).2.script
      rcases d.record_cases c with ⟨-, hsame⟩ | ⟨t, p, -, -, hrecord⟩
      · exact Or.inl (by rw [hsame])
      · exact Or.inl (by rw [hrecord])
  | commit =>
      show Rewritten d.script d.commit.2.script
      rcases d.commit_cases with ⟨-, hcommit⟩ | ⟨t, -, hcommit⟩
      · exact Or.inl (by rw [hcommit])
      · rw [hcommit]
        cases t.commands.isEmpty with
        | true => exact Or.inl rfl
        | false => exact d.rewritten_extended t
  | abort => exact Or.inl d.script_abort
  | execute c =>
      show Rewritten d.script (d.execute c).2.script
      rcases d.execute_cases c
        with ⟨-, hsame, -⟩ | ⟨-, hsettled, -⟩ | ⟨p, -, -, hexecute⟩
      · exact Or.inl (by rw [hsame])
      · exact Or.inl (by rw [hsettled]; rfl)
      · rw [hexecute]
        exact rewritten_extended { d with project := p } _

/-- No run composes a script. -/
theorem rewritten_work (d : Document) (w : Work) :
    Rewritten d.script (d.work w).script := by
  cases w with
  | action a => exact d.rewritten_perform a
  | beginRun cs => exact Or.inl rfl
  | result cs t result =>
      left
      show (d.applyResult cs t result).2.script = d.script
      rw [applyResult_eq]
      split
      next run _ =>
          split
          case isTrue =>
              cases result with
              | error e => rfl
              | ok output => exact script_abort { d with pending := none }
          case isFalse => rfl
      next => rfl

-- ===================================================== the user's part

/-- Composing closes the user's part and does nothing else to it. -/
theorem Rewritten.userPart {s s' : Text} (h : Rewritten s s') :
    userPart s' = userPart s ∨ userPart s' = closed (userPart s) := by
  rcases h with rfl | ⟨generated, rfl⟩
  · exact Or.inl rfl
  · by_cases hany : s ≠ [] ∨ generated ≠ []
    · exact Or.inr (Script.userPart_compose hany)
    · simp only [not_or, ne_eq, Decidable.not_not] at hany
      left
      rw [hany.1, hany.2]
      rfl

/-- However much is done, the part is closed at most once. -/
theorem closed_userPart_workAll (d : Document) (ws : List Work) :
    userPart (d.workAll ws).script = userPart d.script
      ∨ userPart (d.workAll ws).script = closed (userPart d.script) := by
  induction ws generalizing d with
  | nil => exact Or.inl rfl
  | cons w ws ih =>
      show userPart ((d.work w).workAll ws).script = _
          ∨ userPart ((d.work w).workAll ws).script = _
      rcases ih (d.work w) with hrest | hrest <;>
        rcases (d.rewritten_work w).userPart with hfirst | hfirst
          <;> rw [hrest, hfirst]
      · exact Or.inl rfl
      · exact Or.inr rfl
      · exact Or.inr rfl
      · exact Or.inr (Text.closed_closed _)

-- ======================================================== the theorem

/-- Whatever is done to a document, whichever it is, the user's part of its
script stays as it was, or is given a line feed at its end that it had
not. That is done once: what is done afterwards changes nothing more. -/
theorem userPart_workAll (d : Document) (ws later : List Work) :
    let before := userPart d.script
    let after := userPart (d.workAll ws).script
    (after = before
        ∨ (before ≠ [] ∧ before.getLast? ≠ some '\n'
          ∧ after = before ++ ['\n']))
      ∧ (after ≠ before →
        userPart ((d.workAll ws).workAll later).script = after) := by
  intro before after
  have hafter := d.closed_userPart_workAll ws
  refine ⟨?_, fun hchanged => ?_⟩
  · rcases hafter with hsame | hclosed
    · exact Or.inl hsame
    · rcases Text.closed_cases before with hend | ⟨hne, hlast, hfeed⟩
      · exact Or.inl (hclosed.trans hend)
      · exact Or.inr ⟨hne, hlast, hclosed.trans hfeed⟩
  · have hclosed : after = closed before := hafter.resolve_left hchanged
    have hstays : closed after = after := by rw [hclosed, Text.closed_closed]
    rcases (d.workAll ws).closed_userPart_workAll later with hsame | hagain
    · exact hsame
    · exact hagain.trans hstays

end Document

end GridScript
