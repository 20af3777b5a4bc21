/-
Redirections: where channels lead after them.
-/
import GridScript.Shell.Expansion

namespace GridScript.Shell

section Redirections

variable {m : Type → Type} [Monad m] [FileTree m]

/-- Complains that a file cannot be opened. The first reason is that of a
file which is not there. -/
def complainOfFile (missing verb : String) (p : Path) (e : FileError) :
    Eval m Unit := do
  let reason :=
    if e = .notFound || e = .notDirectory then missing.toList else reasonText e
  complain (← worded (verb.toList ++ ' ' :: p ++ ": ".toList ++ reason)
    (p ++ ": ".toList ++ reasonText e))

/-- Opens a file to be read. -/
def openSource (p : Path) : Eval m (Option Channel) := do
  let opened ← if p.isEmpty then pure (.error .notFound) else openFile p
  let give (stream : Stream) : Eval m (Option Channel) := do
    let s ← get
    set { s with sources := s.sources.push stream }
    return some (.source s.sources.size)
  match opened with
  | .ok stream => give stream
  | .error .isDirectory => give .empty
  | .error e =>
    complainOfFile "No such file" "cannot open" p e
    return none

/-- The channel that a path in the directory of channels names. -/
def channelAt? (s : Machine) (p : Path) : Option (Option Channel) :=
  let ofNumber (t : Text) : Option (Option Channel) :=
    if Number.isDigits t then some (s.channels.lookup (Number.ofDigits 0 t))
    else none
  match String.ofList p with
  | "/dev/null" => some (some .void)
  | "/dev/stdin" => some (s.channels.lookup 0)
  | "/dev/stdout" => some (s.channels.lookup 1)
  | "/dev/stderr" => some (s.channels.lookup 2)
  | _ =>
    match Text.afterStart? "/dev/fd/".toList p with
    | some t => ofNumber t
    | none => (Text.afterStart? "/proc/self/fd/".toList p).bind ofNumber

/-- Opens a file to be written. -/
def openTarget (p : Path) (kind : RedirectionKind) :
    Eval m (Option Channel) := do
  let s ← get
  if let some found := channelAt? s p then return found
  let entry ← entryAt p
  let isFile : Bool := match entry with
    | .ok (.file _) => true
    | _ => false
  if kind = .write && s.hasOption 'C' && isFile then
    complainOfFile "" "cannot create" p .alreadyThere
    return none
  let result ← if p.isEmpty then pure (.error .notFound)
    else writeFile p (kind = .append || kind = .both) .empty
  match result with
  | .ok _ => return some (.file (← located p))
  | .error e =>
    complainOfFile "Directory nonexistent" "cannot create" p e
    return none

/-- Tells of a channel that has no number, as a mistake in what has been read
so far. -/
def failOfChannel {α : Type} : Eval m α := do
  complainAt (← get).lastLine "Syntax error: Bad fd number".toList
  throw .mistake

/-- Is this what a channel that becomes another one can be led to: a digit, or
nothing at all, which a dash says? -/
def isChannelName : Text → Bool
  | [c] => c == '-' || c.isDigit
  | _ => false

/-- Leads a channel where a redirection says; false if that cannot be. -/
def applyRedirection (r : Redirection) (target : Text) : Eval m Bool := do
  let put (channel : Option Channel) : Eval m Bool := do
    match channel with
    | none => return false
    | some channel =>
      modify fun s => { s with
          channels := redirect s.channels r.channel channel }
      return true
  match r.kind with
  | .read =>
    match channelAt? (← get) target with
    | some found => put found
    | none => put (← openSource target)
  | .document =>
    let s ← get
    set { s with sources := s.sources.push (.ofText target) }
    put (some (.source s.sources.size))
  | .duplicate =>
    if target = ['-'] then
      modify fun s => { s with
          channels := s.channels.filter (·.1 != r.channel) }
      return true
    else
      match (← get).channels.lookup (Number.ofDigits 0 target) with
      | some channel => put (some channel)
      | none =>
        complain (target ++ ": Bad file descriptor".toList)
        return false
  | kind => put (← openTarget target kind)

end Redirections

end GridScript.Shell
