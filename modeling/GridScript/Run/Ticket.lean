/-
Which run is the newest. Every document counts the runs that it starts.
A run is given a ticket, which names the document's counter and the number
of the run; the ticket is current as long as the counter still stands at
that number.

The counters of all documents are kept together, so that a ticket can be
judged after the document that issued it has been replaced.
-/
import GridScript.Text.Basic

namespace GridScript

/-- The counters of all documents: how many runs each has started. -/
structure RunCounters where
  started : List Nat
  deriving DecidableEq

/-- What a run is known by. -/
structure RunTicket where
  /-- Which counter. -/
  counter : Nat
  /-- The number of the run; the first is 1. -/
  generation : Nat
  deriving DecidableEq

namespace RunCounters

/-- No counters. -/
def empty : RunCounters := ⟨[]⟩

instance : Inhabited RunCounters := ⟨empty⟩

/-- What the next counter will be known by. -/
def fresh (cs : RunCounters) : Nat := cs.started.length

/-- The counters with a new one, which stands at zero. -/
def add (cs : RunCounters) : RunCounters := ⟨cs.started ++ [0]⟩

/-- Where a counter stands. -/
def current (cs : RunCounters) (counter : Nat) : Nat :=
  cs.started.getD counter 0

/-- The ticket of the next run. -/
def nextTicket (cs : RunCounters) (counter : Nat) : RunTicket :=
  ⟨counter, cs.current counter + 1⟩

/-- The counters after a run has started. -/
def advance (cs : RunCounters) (counter : Nat) : RunCounters :=
  ⟨cs.started.modify counter (· + 1)⟩

/-- Is the ticket that of the newest run? -/
def isCurrent (cs : RunCounters) (t : RunTicket) : Bool :=
  cs.current t.counter == t.generation

end RunCounters

end GridScript
