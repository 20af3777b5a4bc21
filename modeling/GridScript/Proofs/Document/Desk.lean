/-
Documents side by side, each with runs of its own. A document that is
closed or replaced while its run is under way leaves a ticket behind, and
the result may then be handed to another document.

A ticket is judged by the counter of the document that it comes from, but
whether a result is waited for is judged by its number alone, and every
document numbers its runs from one. So a foreign ticket is refused unless
the numbers happen to agree: it is the newest of its own document, and the
other document has begun as many runs and waits for the last of them. The
result is then taken for that of the waiting document's own run
(`applyResult_desk`).

# The invariant

`Sound` says of every document on the desk that its counter is the one of
its place, and that the run it waits for, if any, is the last that it has
begun (`Waits`). The tickets of a document are those that its counter has
given, so its newest ticket and the number of its runs can be read off the
record of all tickets.
-/
import GridScript.Proofs.Document.Results

namespace GridScript

/-- The documents at hand, with all tickets of their runs. -/
structure Desk where
  documents : List Document
  counters : RunCounters
  /-- The tickets in the order of their runs, each with the place of the
  document that it comes from. -/
  issued : List (Nat × RunTicket)

namespace Desk

open Document (Origin Change KeepsRuns)

/-- What happens on a desk. -/
inductive Event where
  /-- A document is made or opened, at the next place. -/
  | place (o : Origin)
  | change (i : Nat) (c : Change)
  | beginRun (i : Nat)
  /-- A result comes for a ticket of the record, and is handed to the
  document at a place, whichever the ticket comes from. -/
  | deliver (i n : Nat) (result : Except RunError RunOutput)

/-- No documents. -/
def empty : Desk := ⟨[], .empty, []⟩

/-- The desk after an event. -/
def next (k : Desk) : Event → Desk
  | .place o =>
    { k with
      documents := k.documents ++ [o.document k.counters.fresh]
      counters := k.counters.add }
  | .change i c =>
    match k.documents[i]? with
    | some d => { k with documents := k.documents.set i (d.change c) }
    | none => k
  | .beginRun i =>
    match k.documents[i]? with
    | some d =>
      let (t, d, cs) := d.beginRun k.counters
      ⟨k.documents.set i d, cs, k.issued ++ [(i, t)]⟩
    | none => k
  | .deliver i n result =>
    match k.documents[i]?, k.issued[n]? with
    | some d, some (_, t) =>
      { k with
        documents := k.documents.set i (d.applyResult k.counters t result).2 }
    | _, _ => k

/-- The desk after events in a row. -/
def after (k : Desk) (es : List Event) : Desk := es.foldl next k

/-- The tickets of a document's runs, the first one first. -/
def ticketsOf (k : Desk) (i : Nat) : List RunTicket :=
  (k.issued.filter fun x => x.1 == i).map Prod.snd

-- ========================================================= the invariant

/-- The document at a place has the counter of that place, and waits for no
run but its last. -/
structure Waits (cs : RunCounters) (i : Nat) (d : Document) : Prop where
  counter : d.counter = i
  pending : ∀ run, d.pending = some run → run.generation = cs.current i

theorem Waits.congr {cs cs' : RunCounters} {i : Nat} {d : Document}
    (h : Waits cs i d) (hcurrent : cs'.current i = cs.current i) :
    Waits cs' i d :=
  ⟨h.counter, fun run hrun => (h.pending run hrun).trans hcurrent.symm⟩

/-- A document that knows the same of its runs, or waits for none. -/
theorem Waits.of_pending {cs : RunCounters} {i : Nat} {d e : Document}
    (h : Waits cs i d) (hcounter : e.counter = d.counter)
    (hpending : e.pending = d.pending ∨ e.pending = none) :
    Waits cs i e := by
  refine ⟨hcounter.trans h.counter, fun run hrun => ?_⟩
  rcases hpending with hsame | hnone
  · exact h.pending run (hsame ▸ hrun)
  · rw [hnone] at hrun
    cases hrun

/-- Places, counters and tickets belong together. -/
structure Sound (k : Desk) : Prop where
  counters : k.counters.started.length = k.documents.length
  issued : ∀ i, k.ticketsOf i = k.counters.given i
  documents : ∀ i d, k.documents[i]? = some d → Waits k.counters i d

namespace Sound

variable {k : Desk}

theorem has (h : k.Sound) {i : Nat} {d : Document}
    (hd : k.documents[i]? = some d) :
    k.counters.Has i := by
  unfold RunCounters.Has
  rw [h.counters]
  exact (List.getElem?_eq_some_iff.1 hd).1

/-- One document is exchanged, and no other counter moves. -/
theorem documents_set (h : k.Sound) {cs : RunCounters} {i : Nat} {d : Document}
    (hd : Waits cs i d)
    (hothers : ∀ j, i ≠ j → cs.current j = k.counters.current j) :
    ∀ j e, (k.documents.set i d)[j]? = some e → Waits cs j e := by
  intro j e he
  rw [List.getElem?_set] at he
  split at he
  case isTrue hij =>
      subst hij
      split at he
      case isTrue =>
          injection he with he
          exact he ▸ hd
      case isFalse => cases he
  case isFalse hij => exact (h.documents j e he).congr (hothers j hij)

/-- A document is exchanged for one that waits for no other run. -/
theorem exchange (h : k.Sound) {i : Nat} {d : Document}
    (hd : Waits k.counters i d) :
    ({ k with documents := k.documents.set i d } : Desk).Sound where
  counters := by
    rw [List.length_set]
    exact h.counters
  issued := h.issued
  documents := h.documents_set hd fun _ _ => rfl

/-- A document that is placed waits for no run, and its counter is the next
one. -/
theorem place (h : k.Sound) (o : Origin) : (k.next (.place o)).Sound where
  counters := by
    show (k.counters.started ++ [0]).length = (k.documents ++ [_]).length
    rw [List.length_append, List.length_append, h.counters]
    rfl
  issued := fun i => (h.issued i).trans (k.counters.given_add i).symm
  documents := by
    intro i d hd
    replace hd : (k.documents ++ [o.document k.counters.fresh])[i]? = some d :=
      hd
    rw [List.getElem?_append] at hd
    split at hd
    case isTrue => exact (h.documents i d hd).congr (k.counters.current_add i)
    case isFalse hout =>
        -- the newest document has the newest counter, and waits for nothing
        rw [List.getElem?_singleton] at hd
        split at hd
        case isFalse => cases hd
        case isTrue hlast =>
            have hplace : k.counters.fresh = i := by
              unfold RunCounters.fresh
              rw [h.counters]
              omega
            injection hd with hd
            rw [← hd]
            refine ⟨(Document.counter_document _ o).trans hplace,
              fun run hrun => ?_⟩
            rw [Document.pending_document] at hrun
            cases hrun

theorem change (h : k.Sound) (i : Nat) (c : Change) :
    (k.next (.change i c)).Sound := by
  unfold next
  cases hd : k.documents[i]? with
  | none =>
      simp only [hd]
      exact h
  | some d =>
      have hkeeps := KeepsRuns.change d c
      simp only [hd]
      exact h.exchange
        ((h.documents i d hd).of_pending hkeeps.counter (.inl hkeeps.pending))

/-- Beginning a run adds one ticket and moves one counter. -/
theorem beginRun (h : k.Sound) (i : Nat) : (k.next (.beginRun i)).Sound := by
  unfold next
  cases hd : k.documents[i]? with
  | none =>
      simp only [hd]
      exact h
  | some d =>
      have hwaits := h.documents i d hd
      have hhas := h.has hd
      simp only [hd, Document.beginRun, hwaits.counter]
      refine ⟨?_, ?_, ?_⟩
      · show (k.counters.advance i).started.length
            = (k.documents.set i _).length
        unfold RunCounters.advance
        rw [List.length_modify, List.length_set]
        exact h.counters
      · intro j
        show ((k.issued ++ [(i, k.counters.nextTicket i)]).filter fun x => x.1
          == j).map Prod.snd
          = (k.counters.advance i).given j
        have hold := h.issued j
        unfold ticketsOf at hold
        rw [List.filter_append, List.map_append, hold]
        by_cases hij : i = j
        · subst hij
          rw [RunCounters.given_advance hhas,
            List.filter_cons_of_pos (by simp)]
          rfl
        · rw [RunCounters.given_advance_of_ne hij,
            List.filter_cons_of_neg (by simpa using hij)]
          exact List.append_nil _
      -- the document waits for the ticket that it was just given
      · refine h.documents_set ⟨rfl, fun run hrun => ?_⟩ fun j hij =>
          RunCounters.current_advance_of_ne hij
        injection hrun with hrun
        rw [← hrun, RunCounters.current_advance hhas]
        rfl

/-- A result empties the slot or leaves it as it is. -/
theorem deliver (h : k.Sound) (i n : Nat)
    (result : Except RunError RunOutput) :
    (k.next (.deliver i n result)).Sound := by
  simp only [Desk.next]
  split
  next d j t hd _ =>
      refine h.exchange ?_
      rw [Document.applyResult_eq]
      have hwaits := h.documents i d hd
      split
      next run _ =>
          split
          case isTrue =>
              exact hwaits.of_pending (d.counter_take run result)
                (.inr (d.pending_take run result))
          case isFalse => exact hwaits
      next => exact hwaits
  next => exact h

theorem next (h : k.Sound) (e : Event) : (k.next e).Sound := by
  cases e with
  | place o => exact h.place o
  | change i c => exact h.change i c
  | beginRun i => exact h.beginRun i
  | deliver i n result => exact h.deliver i n result

theorem after (h : k.Sound) (es : List Event) : (k.after es).Sound := by
  induction es generalizing k with
  | nil => exact h
  | cons e es ih => exact ih (h.next e)

theorem getElem_ticketsOf (h : k.Sound) {j n : Nat}
    (hn : n < (k.ticketsOf j).length) :
    (k.ticketsOf j)[n] = ⟨j, n + 1⟩ := by
  have hgiven : n < (k.counters.given j).length := h.issued j ▸ hn
  rw [← RunCounters.getElem_given hgiven]
  simp only [h.issued]

theorem getLast?_ticketsOf (h : k.Sound) {i n : Nat}
    (hlength : (k.ticketsOf i).length = n + 1) :
    (k.ticketsOf i).getLast? = some ⟨i, n + 1⟩ := by
  have hlast : n < (k.ticketsOf i).length := by omega
  rw [List.getLast?_eq_getElem?, hlength, Nat.add_sub_cancel,
    List.getElem?_eq_getElem hlast, h.getElem_ticketsOf hlast]

/-- What a result finds: its ticket has to be the newest of its document,
and its number that of the run waited for, which is the last. -/
theorem applyResult (h : k.Sound) {i : Nat} {d : Document}
    (hd : k.documents[i]? = some d) (j g : Nat)
    (result : Except RunError RunOutput) :
    d.applyResult k.counters ⟨j, g⟩ result
      = match d.pending with
        | some run =>
          if g = (k.ticketsOf j).length ∧ (k.ticketsOf i).length = g then
            d.take run result
          else (.ok false, d)
        | none => (.ok false, d) := by
  rw [Document.applyResult_eq]
  cases hrun : d.pending with
  | none => rfl
  | some run =>
      simp only [RunCounters.isCurrent_iff,
        (h.documents i d hd).pending run hrun, ← RunCounters.length_given,
        h.issued]

end Sound

theorem sound_empty : empty.Sound where
  counters := rfl
  issued := fun _ => rfl
  documents := fun i d hd => by cases hd

-- ======================================================== the theorem

/-- Whosever ticket a result comes with, a document refuses it and stays as
it is unless three things hold: the ticket is the newest of the document
that it comes from, the two documents have begun equally many runs, and the
one that is handed the result waits for one. Then the result is taken as
that of the document's own newest run. -/
theorem applyResult_desk (es : List Event) :
    let k := empty.after es
    ∀ (i : Fin k.documents.length) (j : Nat) (n : Fin (k.ticketsOf j).length)
      (result : Except RunError RunOutput),
      let d := k.documents[i]
      let t := (k.ticketsOf j)[n]
      let agree := n + 1 = (k.ticketsOf j).length
        ∧ (k.ticketsOf i).length = (k.ticketsOf j).length
        ∧ d.pending.isSome = true
      (d.applyResult k.counters t result = (.ok false, d) ↔ ¬agree)
        ∧ (agree → ∃ own, (k.ticketsOf i).getLast? = some own
            ∧ d.applyResult k.counters t result
              = d.applyResult k.counters own result) := by
  intro k i j n result d t agree
  have h : k.Sound := sound_empty.after es
  have hd : k.documents[i.val]? = some d := List.getElem?_eq_getElem i.isLt
  have hticket : t = ⟨j, n + 1⟩ := h.getElem_ticketsOf n.isLt
  rw [hticket, h.applyResult hd]
  cases hrun : d.pending with
  | none =>
      have hidle : ¬agree := fun hagree => by
        have hsome := hagree.2.2
        rw [hrun] at hsome
        cases hsome
      exact ⟨⟨fun _ => hidle, fun _ => rfl⟩, fun hagree => absurd hagree hidle⟩
  | some run =>
      have hsome : d.pending.isSome = true := by rw [hrun]; rfl
      by_cases hnumbers : n + 1 = (k.ticketsOf j).length
        ∧ (k.ticketsOf i).length = n + 1
      case neg =>
          have hdiffer : ¬agree := fun hagree =>
            hnumbers ⟨hagree.1, hagree.2.1.trans hagree.1.symm⟩
          simp only [if_neg hnumbers]
          exact ⟨⟨fun _ => hdiffer, fun _ => trivial⟩,
            fun hagree => absurd hagree hdiffer⟩
      case pos =>
          obtain ⟨hnewest, hequal⟩ := hnumbers
          have hagree : agree := ⟨hnewest, hequal.trans hnewest, hsome⟩
          simp only [if_pos (And.intro hnewest hequal)]
          refine ⟨⟨fun hrefused => ?_, fun hnot => absurd hagree hnot⟩,
            fun _ => ?_⟩
          · -- what is taken leaves nothing to wait for
            have hpending := d.pending_take run result
            rw [hrefused, hrun] at hpending
            cases hpending
          · refine ⟨⟨i, n + 1⟩, h.getLast?_ticketsOf hequal, ?_⟩
            rw [h.applyResult hd, hrun]
            exact (if_pos ⟨hequal.symm, hequal⟩).symm

end Desk

end GridScript
