/-
The log of commands. Commands are recorded in a transaction, and a
transaction is kept when it is committed, unless nothing was recorded.
There is at most one active transaction.

While a user types into cells, each write to the table that was written
last is merged into that write. The merged command has the effect of the
two, one after the other, and the later value of a cell counts.
-/
import GridScript.Command.Render

namespace GridScript

/-- What a transaction is for. -/
inductive TransactionKind where
  | general
  /-- Typing into cells; writes to one table are merged. -/
  | cellEdit
  deriving DecidableEq

/-- Commands that belong together. -/
structure Transaction where
  kind : TransactionKind
  commands : List Command
  deriving DecidableEq

/-- Why the log refuses. -/
inductive LogError where
  | noActiveTransaction
  | transactionActive
  deriving DecidableEq

/-- The wording of a refusal. -/
def LogError.message : LogError → Text
  | noActiveTransaction => "No active transaction".toList
  | transactionActive => "A transaction is already active".toList

/-- The command that has the effect of one and then another, if they write
cells of one table. -/
def Command.merge? : Command → Command → Option Command
  | .setCells id cells, .setCells id' later =>
    if id = id' then
      some
        (.setCells id
          (later.entries.foldl (fun m (c, v) => m.insert c v) cells))
    else none
  | _, _ => none

namespace Transaction

/-- Commands after one more, which is merged into the last if it can be. -/
def mergeLast (c : Command) : List Command → List Command
  | [] => [c]
  | [last] =>
    match last.merge? c with
    | some merged => [merged]
    | none => [last, c]
  | first :: rest => first :: mergeLast c rest

/-- The transaction after one more command. -/
def record (t : Transaction) (c : Command) : Transaction :=
  match t.kind with
  | .general => { t with commands := t.commands ++ [c] }
  | .cellEdit => { t with commands := mergeLast c t.commands }

/-- The lines of the commands. -/
def lines (t : Transaction) : List Text := t.commands.flatMap Command.render

end Transaction

/-- The transactions that were committed, in order, and the active one. -/
structure Log where
  committed : List Transaction
  active : Option Transaction
  deriving DecidableEq

namespace Log

/-- The log without transactions. -/
def empty : Log := ⟨[], none⟩

instance : Inhabited Log := ⟨empty⟩

/-- The log of a script that has lines already. -/
def ofLines (lines : List Text) : Log :=
  if lines.isEmpty then empty else ⟨[⟨.general, [.script lines]⟩], none⟩

/-- Is a transaction active? -/
def isActive (l : Log) : Bool := l.active.isSome

/-- Begins a transaction. -/
def begin (l : Log) (kind : TransactionKind) : Except LogError Log :=
  match l.active with
  | some _ => .error .transactionActive
  | none => .ok { l with active := some ⟨kind, []⟩ }

/-- Records a command in the active transaction. -/
def record (l : Log) (c : Command) : Except LogError Log :=
  match l.active with
  | none => .error .noActiveTransaction
  | some t => .ok { l with active := some (t.record c) }

/-- Ends the active transaction and gives it back. It is kept unless it is
empty. -/
def commit (l : Log) : Except LogError (Transaction × Log) :=
  match l.active with
  | none => .error .noActiveTransaction
  | some t =>
      .ok (t,
        ⟨if t.commands.isEmpty then l.committed else l.committed ++ [t], none⟩)

/-- Drops the active transaction. -/
def abort (l : Log) : Log := { l with active := none }

/-- The lines of the committed transactions. -/
def lines (l : Log) : List Text := l.committed.flatMap Transaction.lines

end Log

end GridScript
