/-
A document: a project, the log of the commands that led to it, and the
script written from that log.

The three are kept in step. A command that is recorded is applied to the
project at once, and the script is written anew when a transaction is
committed. When a transaction is aborted, the project goes back to what it
was when the transaction began. When the script is edited by hand, the log
is read back from it.

Every operation gives its result beside the document after it, also when
it is refused, so that what a refusal leaves behind can be spoken of.
-/
import GridScript.Command.Apply
import GridScript.Command.Transaction
import GridScript.History
import GridScript.Script.Normal
import GridScript.Script.Selection
import GridScript.Storage.Path

namespace GridScript

-- ======================================================== refusals

/-- Why an operation on a document is refused. -/
inductive EditError where
  | log (e : LogError)
  | project (e : ProjectError)
  deriving DecidableEq

/-- The wording of a refusal. -/
def EditError.message : EditError → Text
  | log e => e.message
  | project e => e.message

-- ======================================================== documents

/-- The script that was handed to the newest run. -/
structure PendingRun where
  generation : Nat
  script : Text
  deriving DecidableEq

/-- A document. -/
structure Document where
  project : Project
  log : Log
  script : Text
  /-- The counter of the document's runs. -/
  counter : Nat
  /-- The project as it was when the active transaction began. -/
  checkpoint : Option Project
  pending : Option PendingRun
  /-- The file that the document was last read from or written to. -/
  path : Option Path
  /-- Has the script changed since then? -/
  modified : Bool
  deriving DecidableEq

namespace Document

/-- A new document, whose script takes its helpers from a module. -/
def blank (counter : Nat) (helperModule : Text) : Document where
  project := .empty
  log := .empty
  script := Script.newScript helperModule
  counter := counter
  checkpoint := none
  pending := none
  path := none
  modified := false

/-- The history that a script is opened with: the one that is given, unless
there is none in it, or else the one in the script. -/
def chooseHistory (script : Text) : Option History → History
  | some h => if h.isEmpty then .ofScript script else h
  | none => .ofScript script

/-- The document of a script. Its project is empty until a run fills it. -/
def ofScript (counter : Nat) (script : Text) (history : Option History) :
    Document :=
  { blank counter Script.defaultModule with
    log := .ofLines (chooseHistory script history).commands
    script := script }

-- ======================================================== the script

/-- The generated part that the log stands for, in its normal form. -/
def generatedText (d : Document) : Text :=
  Text.unlines (Script.normalize d.log.lines)

/-- The document with its script written anew. -/
def regenerated (d : Document) : Document :=
  { d with
    script := Script.compose d.script d.generatedText, modified := true }

/-- The history of the document. -/
def history (d : Document) : History := .ofGenerated d.generatedText

-- ======================================================== transactions

/-- What an operation gives, and the document after it. -/
abbrev Outcome (α : Type) := Except EditError α × Document

/-- Begins a transaction. -/
def begin (d : Document) (kind : TransactionKind) : Outcome Unit :=
  match d.log.begin kind with
  | .error e => (.error (.log e), d)
  | .ok log => (.ok (), { d with log := log, checkpoint := some d.project })

/-- Applies a command and records it in the active transaction. An idle
command is neither applied nor recorded, and the result is then false. -/
def record (d : Document) (c : Command) : Outcome Bool :=
  if !d.log.isActive then (.error (.log .noActiveTransaction), d)
  else if c.isIdle then (.ok false, d)
  else
    match c.apply d.project with
    | .error e => (.error (.project e), d)
    | .ok project =>
      match d.log.record c with
      | .error e => (.error (.log e), d)
      | .ok log => (.ok true, { d with project := project, log := log })

/-- Ends the active transaction. The script is written anew unless nothing
was recorded. -/
def commit (d : Document) : Outcome Transaction :=
  match d.log.commit with
  | .error e => (.error (.log e), d)
  | .ok (t, log) =>
    let d := { d with log := log, checkpoint := none }
    (.ok t, if t.commands.isEmpty then d else d.regenerated)

/-- Drops the active transaction, if there is one, and takes the project
back to where it began. -/
def abort (d : Document) : Document :=
  if d.log.isActive then
    { d with
      log := d.log.abort
      project := d.checkpoint.getD d.project
      checkpoint := none }
  else d

/-- Runs a command as a transaction of its own. -/
def execute (d : Document) (c : Command) : Outcome Bool :=
  match d.begin .general with
  | (.error e, d) => (.error e, d)
  | (.ok _, d) =>
    match d.record c with
    | (.error e, d) => (.error e, d.abort)
    | (.ok recorded, d) =>
      match d.commit with
      | (.error e, d) => (.error e, d)
      | (.ok _, d) => (.ok recorded, d)

/-- Takes over a script that was edited by hand. -/
def edit (d : Document) (script : Text) : Document :=
  { d.abort with
    log := .ofLines (History.ofScript script).commands
    script := script
    modified := true }

/-- A script that runs a byte range of the document's script. -/
def selection? (d : Document) (start stop : Nat) : Option Text :=
  Script.selectionScript? d.script start stop

end Document

end GridScript
