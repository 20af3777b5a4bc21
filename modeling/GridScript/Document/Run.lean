/-
Runs of a document. A run is begun with the script as it is then, and its
result may come when the document has long changed. It counts only for the
newest run, and only once. A result that counts replaces the project, and
the log is read back from the script that was run; the script itself stays
as the user has left it.

Whether a ticket is the newest is judged by its own counter, and whether
the document waits for it by its number alone.
-/
import GridScript.Document.Basic
import GridScript.Run.Runner

namespace GridScript.Document

/-- Begins a run. Any earlier run is then stale. -/
def beginRun (d : Document) (cs : RunCounters) :
    RunTicket × Document × RunCounters :=
  let t := cs.nextTicket d.counter
  (t, { d with
      pending := some ⟨t.generation, d.script⟩ }, cs.advance d.counter)

/-- The document after a run of a script has reported a project. -/
def adopt (d : Document) (executed : Text) (project : Project) : Document :=
  { d.abort with
    project := project
    log := .ofLines (History.ofScript executed).commands }

/-- Takes the result of a run. The answer is false if it does not count, and
the failure of the run if it does. -/
def applyResult (d : Document) (cs : RunCounters) (t : RunTicket)
    (result : Except RunError RunOutput) : Except RunError Bool × Document :=
  if !cs.isCurrent t then (.ok false, d)
  else
    match d.pending with
    | none => (.ok false, d)
    | some run =>
      if run.generation ≠ t.generation then (.ok false, d)
      else
        let d := { d with pending := none }
        match result with
        | .error e => (.error e, d)
        | .ok output => (.ok true, d.adopt run.script output.project)

/-- Runs the whole script and takes the result. -/
def run {m : Type → Type} [Monad m] [FileStore m] [ProcessHost m]
    (d : Document) (cs : RunCounters) (r : Runner) :
    m ((Except RunError Bool × Document) × RunCounters) := do
  let (t, d, cs) := d.beginRun cs
  let result ← r.run cs d.script t
  return (d.applyResult cs t result, cs)

end GridScript.Document
