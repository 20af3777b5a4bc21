/-
The state of a shell and what every command can do with it: read and write
its channels, open files, complain, and let time pass.

Time is counted, not spent: a command that waits moves the clock on, and a
shell whose clock reaches the deadline has not ended in time. A shell that
never ends has not, either.
-/
import GridScript.Number.Natural
import GridScript.Shell.Signal
import GridScript.Shell.Stream
import GridScript.Shell.Syntax
import GridScript.Storage.FileStore

namespace GridScript.Shell

/-- Where a channel leads. -/
inductive Channel where
  /-- Output that is gathered. -/
  | buffer (n : Nat)
  /-- Input that was given. -/
  | source (n : Nat)
  /-- A file that is added to. -/
  | file (path : Path)
  /-- Nowhere. -/
  | void
  deriving DecidableEq

/-- The channels that are open, by number. -/
abbrev Channels := List (Nat × Channel)

/-- Why commands do not go on. -/
inductive Stop where
  | exit (code : Nat)
  /-- The function, or the sourced file, is left. -/
  | return_ (code : Nat)
  /-- So many loops are left. -/
  | leave (loops : Nat)
  /-- So many loops but one are left, and the last goes on. -/
  | again (loops : Nat)
  /-- A mistake was told of. It ends the command, or the shell. -/
  | mistake
  /-- A signal has ended the process. -/
  | killed (signal : Signal)
  /-- Nobody reads what is written. -/
  | unread
  /-- Time is up. -/
  | unfinished
  deriving DecidableEq

/-- A command that is not waited for, with what it needs of the shell that
it came from. -/
structure Job where
  process : Nat
  /-- When it was started. -/
  start : Nat
  statement : Statement
  bindings : List (Text × Text)
  arguments : List Text
  channels : Channels
  directory : Path

/-- What a function made its own: what the variable was before, and whether
programs were given it. -/
structure Hidden where
  name : Text
  value : Option Text
  isExported : Bool

/-- Which shell it is. They differ in what they say, and in their `echo`. -/
inductive Dialect where
  /-- The one that is called `sh`. -/
  | plain
  /-- The one that is called `bash`. -/
  | verbose
  deriving DecidableEq

/-- The state of a shell. -/
structure Machine where
  dialect : Dialect
  /-- What the shell is called in messages. -/
  name : Text
  /-- The number of the shell's process. -/
  process : Nat
  /-- The number of the process that the commands run in, and of those that
  wait for it, the nearest first. -/
  self : Nat
  above : List Nat
  arguments : List Text
  bindings : List (Text × Text)
  /-- The variables that programs are started with. -/
  exported : List Text
  /-- The variables that keep their values. -/
  protected_ : List Text
  /-- The variables that the function that is running made its own; none
  outside of functions. -/
  hidden : Option (List Hidden)
  functions : List (Text × Statement)
  aliases : List (Text × Text)
  /-- The status of the last command. -/
  status : Nat
  /-- The status of the last command that was part of a word. -/
  substitution : Option Nat
  /-- Does something else look at the status of the command? -/
  tested : Bool
  channels : Channels
  buffers : Array Stream
  sources : Array Stream
  /-- Commands that were not waited for. -/
  background : List Job
  /-- The statuses of commands that were, by process. -/
  ended : List (Nat × Nat)
  /-- The process of the last command in the background. -/
  lastJob : Option Nat
  /-- How many processes were started. -/
  processes : Nat
  /-- The files of the programs that were found. -/
  tracked : List (Text × Path)
  /-- The letters of the options that are on, in the order of their table. -/
  options : Text
  /-- What is done about signals; an empty text ignores one. -/
  traps : List (Signal × Text)
  /-- The signals that were sent to processes which wait. -/
  pending : List (Nat × Signal)
  /-- The command of the shell that is running, for messages. -/
  command : Option Text
  line : Nat
  /-- The line up to which the source has been read. -/
  lastLine : Nat
  /-- How many loops the command is in. -/
  loops : Nat
  /-- How many functions the command is in. -/
  calls : Nat
  /-- The argument that options are read from, and how far they were. -/
  optionPlace : Nat × Nat
  directory : Path
  /-- The permissions that new files do not have. -/
  mask : Nat
  /-- The places of files that were made programs. -/
  runnable : List (List Text)
  /-- In milliseconds, like the deadline. -/
  clock : Nat
  deadline : Nat

/-- Is the option of a letter on? -/
def Machine.hasOption (s : Machine) (letter : Char) : Bool :=
  s.options.contains letter

/-- What commands do. -/
abbrev Eval (m : Type → Type) := ExceptT Stop (StateT Machine m)

section Actions

variable {m : Type → Type} [Monad m] [FileTree m]

/-- What a store gives. -/
def ofStore {α : Type} (act : m α) : Eval m α := ExceptT.lift (StateT.lift act)

-- ======================================================== output

/-- Writes a stream to a channel. One that never ends leaves the command
with nobody to read it, or running for ever. -/
def emit (channel : Nat) (stream : Stream) : Eval m Unit := do
  match (← get).channels.lookup channel with
  | some (.buffer n) =>
    modify fun s => { s with buffers := s.buffers.modify n (·.append stream) }
    if stream.isEndless then throw (if n < 2 then .unfinished else .unread)
  | some (.file p) =>
    if stream.isEndless then throw .unfinished
    let before ← ofStore (FileStore.read p)
    let bytes := (match before with
      | .ok contents => contents.toUTF8
      | .error _ => .empty) ++ stream.bytes
    let _ ← ofStore (FileStore.write p (String.ofList (Stream.decode bytes)))
  | _ => if stream.isEndless then throw .unfinished

/-- Writes a text. -/
def emitText (channel : Nat) (t : Text) : Eval m Unit :=
  emit channel (.ofText t)

/-- Writes lines. -/
def emitLines (channel : Nat) (lines : List Text) : Eval m Unit :=
  emitText channel (Text.unlines lines)

/-- Tells of something in a line. -/
def complainAt (line : Nat) (what : Text) : Eval m Unit := do
  let s ← get
  let command := (s.command.map (· ++ ": ".toList)).getD []
  let place :=
    (if s.dialect = .plain then "" else "line ").toList ++ Number.decimal line
  emitText 2
    (s.name ++ ": ".toList ++ place ++ ": ".toList ++ command ++ what
      ++ ['\n'])

/-- Tells of something. -/
def complain (what : Text) : Eval m Unit := do complainAt (← get).line what

/-- One of two wordings, by the shell. -/
def worded (plain verbose : Text) : Eval m Text := do
  return if (← get).dialect = .plain then plain else verbose

/-- Tells of a mistake. -/
def fail {α : Type} (what : Text) : Eval m α := do
  complain what
  throw .mistake

-- ======================================================== variables

/-- The variables with one that has another value, or none. -/
def withBinding (name : Text) (value : Option Text) (vs : List (Text × Text)) :
    List (Text × Text) :=
  match value with
  | none => vs.filter (·.1 != name)
  | some t =>
    if vs.any (·.1 == name) then vs.map fun v => if v.1 == name then (name, t)
    else v
    else vs ++ [(name, t)]

/-- Gives a variable a value or takes it away, whatever protects it. -/
def restoreVariable (name : Text) (value : Option Text) : Eval m Unit :=
  modify fun s => { s with
    bindings := withBinding name value s.bindings
    exported := if s.hasOption 'a' && value.isSome then s.exported.insert name
      else s.exported }

/-- Sets a variable. -/
def setVariable (name value : Text) : Eval m Unit := do
  if (← get).protected_.contains name then
    fail (name ++ ": is read only".toList)
  restoreVariable name (some value)

/-- The status that the last command has from now on. -/
def setStatus (code : Nat) : Eval m Unit :=
  modify fun s => { s with status := code }

-- ======================================================== time

/-- Lets time pass. -/
def pass (millis : Nat) : Eval m Unit := do
  modify fun s => { s with clock := s.clock + millis }
  let s ← get
  if s.deadline ≤ s.clock then throw .unfinished

/-- Does something over and over, as long as it says so. What goes on for
too long is taken to go on for ever. -/
def repeatWithin : Nat → Eval m Bool → Eval m Unit
  | 0, _ => throw .unfinished
  | turns + 1, act => do if ← act then repeatWithin turns act

/-- How often a loop may turn. -/
def turnLimit : Nat := 200000

-- ======================================================== files

/-- The path as the store knows it. -/
def located (p : Path) : Eval m Path := return Path.join (← get).directory p

/-- The place that a path leads to, by the names from the root on. -/
def placeOf (p : Path) : Eval m (List Text) := do
  return (Path.wayFromRoot? (← located p)).getD []

/-- What a channel that is read gives to its end. -/
def drain (channel : Nat) : Eval m Stream := do
  match (← get).channels.lookup channel with
  | some (.source n) =>
    let s ← get
    set { s with sources := s.sources.modify n fun _ => .empty }
    return s.sources.getD n .empty
  | _ => return .empty

/-- What a file holds. -/
def openFile (p : Path) : Eval m (Except FileError Stream) := do
  match String.ofList p with
  | "" => return .error .notFound
  | "/dev/null" => return .ok .empty
  | "/dev/zero" => return .ok ⟨.empty, ByteArray.empty.push 0⟩
  | "/dev/stdin" => return .ok (← drain 0)
  | _ =>
    match ← ofStore (FileStore.read (← located p)) with
    | .ok contents => return .ok (.ofBytes contents.toUTF8)
    | .error e => return .error e

/-- What stands at a path. -/
def entryAt (p : Path) : Eval m (Except FileError FileEntry) := do
  if ["null", "zero", "stdin", "stdout", "stderr"].any fun name =>
    p = "/dev/".toList ++ name.toList then return .ok (.file 0)
  if p.isEmpty then return .error .notFound
  ofStore (FileStore.entry (← located p))

/-- Makes a file hold a stream, after what it holds or in its place. -/
def writeFile (p : Path) (append : Bool) (stream : Stream) :
    Eval m (Except FileError Unit) := do
  if p.isEmpty then return .error .notFound
  if p = "/dev/null".toList then return .ok ()
  let path ← located p
  let before ← if append then ofStore (FileStore.read path)
      else pure (.error .notFound)
  let bytes := (match before with
    | .ok contents => contents.toUTF8
    | .error _ => .empty) ++ stream.bytes
  ofStore (FileStore.write path (String.ofList (Stream.decode bytes)))

/-- A reason without the number of the error. -/
def reasonText (e : FileError) : Text :=
  let t := e.message
  match Text.cutAtFirst? '(' t with
  | some (before, _) =>
      Text.joinWith [' '] ((Text.splitOn ' ' before).filter (!·.isEmpty))
  | none => t

-- ======================================================== surroundings

/-- Does something and gives how it ended. -/
def attempt {α : Type} (act : Eval m α) : Eval m (Except Stop α) :=
  ExceptT.lift act.run

/-- Gives what was given, or stops again. -/
def resume {α : Type} : Except Stop α → Eval m α
  | .ok a => return a
  | .error stop => throw stop

/-- Does something and then something else, however the first ended. -/
def finally_ {α : Type} (act : Eval m α) (after : Eval m Unit) : Eval m α := do
  let result ← attempt act
  after
  resume result

/-- Does something with other channels. -/
def withChannels {α : Type} (channels : Channels) (act : Eval m α) :
    Eval m α := do
  let before := (← get).channels
  modify fun s => { s with channels := channels }
  finally_ act (modify fun s => { s with channels := before })

/-- Does something as a command of the shell, which messages name. -/
def asCommand {α : Type} (name : Text) (act : Eval m α) : Eval m α := do
  let before := (← get).command
  modify fun s => { s with command := some name }
  finally_ act (modify fun s => { s with command := before })

/-- How a process ended. -/
inductive ProcessEnding where
  | status (code : Nat)
  | signal (s : Signal)
  deriving DecidableEq

/-- The status that tells of the end of a process. -/
def ProcessEnding.code : ProcessEnding → Nat
  | status code => code
  | signal s => 128 + s.number

/-- How a process ended that stopped, or why others stop as well. -/
def endingOf (status : Nat) : Except Stop Unit → Except Stop ProcessEnding
  | .ok _ => .ok (.status (status % 256))
  | .error (.exit code) => .ok (.status (code % 256))
  | .error (.return_ code) => .ok (.status (code % 256))
  | .error (.leave _) => .ok (.status (status % 256))
  | .error (.again _) => .ok (.status (status % 256))
  | .error .mistake => .ok (.status 2)
  | .error .unread => .ok (.signal .pipe)
  | .error (.killed signal) => .ok (.signal signal)
  | .error .unfinished => .error .unfinished

/-- Does something over the elements of a list, as long as it says so. -/
def eachWhile {α : Type} (act : α → Eval m Bool) : List α → Eval m Unit
  | [] => return
  | a :: as => do if ← act a then eachWhile act as

/-- The first element of a list about which something is so. -/
def firstThat {α : Type} (test : α → Eval m Bool) : List α → Eval m (Option α)
  | [] => return none
  | a :: as => do if ← test a then return some a else firstThat test as

/-- The state of the shell again after another process, which could change
files, use up what is read, print and let time pass. -/
def Machine.after (before s : Machine) : Machine :=
  { before with
    buffers := s.buffers, sources := s.sources
    background := s.background ++ before.background
    ended := s.ended, pending := s.pending
    processes := s.processes, runnable := s.runnable
    clock := s.clock }

/-- The number of a new process. -/
def newProcess : Eval m Nat := do
  modify fun s => { s with processes := s.processes + 1 }
  return (← get).processes

/-- Does something in a process of its own that goes on with the state of
this one, and gives how it ended. What it prints, reads and waits for
counts; what it sets is forgotten. -/
def inProcess (process : Nat) (act : Eval m Unit) : Eval m ProcessEnding := do
  let before ← get
  set { before with
      background := [], self := process, above := before.self :: before.above }
  let result ← attempt act
  let s ← get
  set (before.after s)
  match endingOf s.status result with
  | .ok ending =>
    setStatus ending.code
    return ending
  | .error stop => throw stop

/-- The channels with one of them leading somewhere else. -/
def redirect (channels : Channels) (n : Nat) (c : Channel) : Channels :=
  (n, c) :: channels.filter (·.1 != n)

/-- What something prints to the end. -/
def captured (act : Eval m Unit) : Eval m Stream := do
  let s ← get
  let n := s.buffers.size
  set { s with buffers := s.buffers.push .empty }
  withChannels (redirect s.channels 1 (.buffer n)) act
  return (← get).buffers.getD n .empty

/-- Does something with a stream to read. -/
def withInput (stream : Stream) (act : Eval m Unit) : Eval m Unit := do
  let s ← get
  set { s with sources := s.sources.push stream }
  withChannels (redirect s.channels 0 (.source s.sources.size)) act

end Actions

end GridScript.Shell
