/-
Logs as they are kept: what commands are written as, and lines that people
wrote between them. Such a log is fit pieces, all of them resolved, so its
normal form is its own normal form, whatever tables it is about, whether
it creates them, and whoever shares a local name with whom.
-/
import GridScript.Proofs.Command.Pieces
import GridScript.Proofs.Project.Replay

namespace GridScript

open Script (Piece PlainLine Resolved normalize tokens)

/-- The lines of a log are those of its commands. -/
theorem Log.lines_eq (l : Log) :
    l.lines = (l.commands.flatMap Command.pieces).flatMap Piece.render := by
  unfold lines commands
  rw [List.flatMap_assoc, List.flatMap_assoc]
  simp only [Command.render_pieces]
  rfl

theorem Log.fit_pieces {cs : List Command} (h : ∀ c ∈ cs, c.Flat) :
    ∀ p ∈ cs.flatMap Command.pieces, p.Fit := by
  intro p hp
  obtain ⟨c, hc, hp⟩ := List.mem_flatMap.1 hp
  exact Command.fit_pieces (h c hc) p hp

/-- An entry of a log: a command, or a line of another origin. -/
inductive Entry where
  | command (c : Command)
  | line (l : Text)

namespace Entry

/-- The lines of an entry. -/
def lines : Entry → List Text
  | command c => c.render
  | line l => [l]

/-- A flat command, or a line that opens no block and is in none. -/
def Flat : Entry → Prop
  | command c => c.Flat
  | line l => PlainLine l

/-- The pieces of an entry. -/
def pieces : Entry → List Piece
  | command c => c.pieces
  | line l => [.line l]

theorem render_pieces (e : Entry) :
    e.pieces.flatMap Piece.render = e.lines := by
  cases e with
  | command c => exact c.render_pieces
  | line l => rfl

theorem fit_pieces {e : Entry} (h : e.Flat) : ∀ p ∈ e.pieces, p.Fit := by
  cases e with
  | command c => exact Command.fit_pieces h
  | line l =>
      intro p hp
      rw [List.mem_singleton.1 hp]
      exact h

theorem resolved_pieces (n : Script.Names) (e : Entry) :
    Resolved n e.pieces := by
  cases e with
  | command c => exact c.resolved_pieces n
  | line l => exact ⟨trivial, trivial⟩

end Entry

variable {es : List Entry}

theorem render_entries :
    (es.flatMap Entry.pieces).flatMap Piece.render
      = es.flatMap Entry.lines := by
  rw [List.flatMap_assoc]
  simp only [Entry.render_pieces]

theorem fit_entries (h : ∀ e ∈ es, e.Flat) :
    ∀ p ∈ es.flatMap Entry.pieces, p.Fit := by
  intro p hp
  obtain ⟨e, he, hp⟩ := List.mem_flatMap.1 hp
  exact Entry.fit_pieces (h e he) p hp

theorem resolved_entries (n : Script.Names) (es : List Entry) :
    Resolved n (es.flatMap Entry.pieces) :=
  Script.resolved_flatMap Entry.resolved_pieces n es

/-- Normalizing a log is idempotent, whatever commands and lines it holds
and in whatever order. -/
theorem normalize_idempotent (es : List Entry) (h : ∀ e ∈ es, e.Flat) :
    normalize (normalize (es.flatMap Entry.lines))
      = normalize (es.flatMap Entry.lines) := by
  rw [← render_entries]
  exact Script.normalize_normalize_render (fit_entries h)
    (resolved_entries .none es)

/-- A log with two tables of one local name, one of them unknown, and a
name of the user's for the other. -/
def crossedLog : List Entry :=
  [.command (.setCell "a b".toList ⟨.body, 0, 0⟩ (.boolean true)),
   .line "x = y".toList,
   .command (.setFormula "a-b".toList (.cell ⟨.body, 1, 2⟩) "=A1 + 2".toList),
   .line [],
   .line (Script.bindingLine "a b".toList),
   .command
     (.setRange "a-b".toList
       ⟨.topLabels, 0, 0⟩ [[.text "it's".toList, .empty]])]

theorem normalize_idempotent_crossedLog :
    (∀ e ∈ crossedLog, e.Flat)
      ∧ normalize (normalize (crossedLog.flatMap Entry.lines))
        = normalize (crossedLog.flatMap Entry.lines) := by
  have hflat : ∀ e ∈ crossedLog, e.Flat := by
    have hname : Text.IsWord ['x'] := by decide
    have hassign : PlainLine "x = y".toList :=
      Script.plainLine_of_binding (by decide)
        (Script.eatBinding?_tokens hname ['y'])
    have hempty : PlainLine [] :=
      ⟨Text.unbroken_nil, Or.inl rfl, by rw [Script.tokens_nil]; rfl⟩
    have hformula : Text.Unbroken "=A1 + 2".toList := by decide
    intro e he
    simp only [crossedLog, List.mem_cons, List.not_mem_nil, or_false] at he
    rcases he with rfl | rfl | rfl | rfl | rfl | rfl
    · trivial
    · exact hassign
    · exact hformula
    · exact hempty
    · exact Script.plainLine_bindingLine _
    · trivial
  exact ⟨hflat, normalize_idempotent crossedLog hflat⟩

end GridScript
