/-
What commands do. Evaluation goes by a budget that is spent on depth;
commands that use it up, or turn in a loop for too long, are taken to run for
ever.

The last command of a process that was made for some commands, and that keeps
no traps, takes the place of the process.
-/
import GridScript.Shell.Arithmetic
import GridScript.Shell.Control

namespace GridScript.Shell

/-- Where a source comes from. -/
inductive SourceKind where
  /-- A file, or what is read. -/
  | file
  /-- An argument. -/
  | argument
  /-- A part of a word, which a process of its own runs. -/
  | word
  deriving DecidableEq

/-- The shell that a program is, if it is one. -/
def shellDialect? (name : Text) : Option Dialect :=
  match String.ofList name with
  | "sh" => some .plain
  | "dash" => some .plain
  | "bash" => some .verbose
  | _ => none

section Evaluation

variable {m : Type → Type} [Monad m] [FileTree m]

/-- How a shell says that a name starts nothing. -/
def absence (name : Text) : Eval m Text :=
  worded "not found".toList
    (if name.contains '/' then "No such file or directory"
      else "command not found").toList

/-- The status of a command whose channels cannot be led where they
should. -/
def refusedStatus : Eval m Nat :=
  return if (← get).dialect = .plain then 2 else 1

mutual

-- ======================================================== words

/-- The pieces that a part of a word makes. -/
def expandPart : Nat → WordPart → Eval m (List Piece)
  | 0, _ => throw .unfinished
  | budget + 1, part => do
    let made (quoted : Bool) (t : Text) : List Piece :=
      [if quoted then .solid t else .loose t]
    match part with
    | .text t quoted => return [if quoted then .solid t else .plain t]
    | .home user =>
      let home := ((← get).bindings.lookup "HOME".toList)
      match user.isEmpty, home with
      | true, some home => return [.solid home]
      | true, none => return [.plain ['~']]
      | false, _ =>
        return if user = "root".toList then [.solid "/root".toList]
          else [.plain ('~' :: user)]
    | .command line source quoted =>
      let before ← get
      let stream ← captured
          (inChild (toEnd budget (runSource budget .word line source)))
      if stream.isEndless then throw .unfinished
      let status := (← get).status
      deliver budget
      modify fun s => { s with
          substitution := some status, status := before.status }
      return made quoted (withoutLineEnds (Stream.decode stream.bytes))
    | .arithmetic expression quoted =>
      let t ← plainText (← expandWord budget expression)
      return made quoted (Number.integer (← calculate budget t))
    | .parameter name form operand quoted =>
        expandParameter budget name form operand quoted
    | .joined parts =>
        return [.solid (← plainText (← expandWord budget parts))]

/-- The value of an arithmetic expression. -/
def calculate : Nat → Text → Eval m Int
  | 0, _ => throw .unfinished
  | _ + 1, t => do
    let wrong (reason : Text) : Eval m Int :=
      fail
        ("arithmetic expression: ".toList ++ reason ++ ": \"".toList ++ t
          ++ ['"'])
    match Arithmetic.read t with
    | .error expected => wrong ("expecting ".toList ++ expected)
    | .ok (e, isAll) =>
      match Arithmetic.evaluate (← get).bindings e, isAll with
      | .error .divisionByZero, _ => wrong "division by zero".toList
      | .error (.noNumber t), _ => fail ("Illegal number: ".toList ++ t)
      | .ok _, false => wrong "expecting EOF".toList
      | .ok (v, vs), true =>
        for name in (Arithmetic.assigned e).eraseDups do
          if let some t := vs.lookup name then
            if (← get).bindings.lookup name != some t then setVariable name t
        return v

/-- The pieces that a parameter makes. -/
def expandParameter :
    Nat → Text → ParameterForm → Word → Bool → Eval m (List Piece)
  | 0, _, _, _, _ => throw .unfinished
  | budget + 1, name, form, operand, quoted => do
    let made (t : Text) : List Piece := [if quoted then .solid t else .loose t]
    let s ← get
    let value := parameter? s name
    let isAll := name = ['@'] || name = ['*']
    if form = .unknown then fail "Bad substitution".toList
    let replaces : Bool := match form with
      | .instead _ _ => true
      | _ => false
    if s.hasOption 'u' && value.isNone && !replaces && !isAll then
      fail (name ++ ": ".toList ++ (← worded "parameter not set".toList
        "unbound variable".toList))
    let each (change : Text → Text) : List Piece :=
      let joints := if quoted && name = ['*'] then joint s else [apart]
      if s.arguments.isEmpty then []
      else
        ((Text.splitOn apart (change (Text.joinWith joints s.arguments))).map
        fun t => if quoted then Piece.solid t else .loose t).intersperse
          .boundary
    let other : Eval m (List Piece) :=
      return (← expandWord budget operand).map Piece.asValue
    let own : List Piece := if isAll then each id else made (value.getD [])
    match form with
    | .unknown => return []
    | .plain => return own ++ (← other)
    | .length =>
      let t := if isAll then joinedArguments s else value.getD []
      return made (Number.decimal (Text.byteLength t))
    | .without atEnd longest =>
      if value.isNone && !isAll then return made []
      let pattern := patternOf (← expandWord budget operand)
      return if isAll then each (pattern.cut atEnd longest)
        else made (pattern.cut atEnd longest (value.getD []))
    | .instead colon how =>
      let missing := value.isNone || (colon && value == some [])
      match how with
      | '+' => if missing then return made [] else other
      | '-' => if missing then other else return own
      | '=' =>
        if !missing then return own
        if isAll || !(name.head?.map Text.isWordStart).getD false then
          fail (name ++ ": bad variable name".toList)
        let t ← plainText (← expandWord budget operand)
        setVariable name t
        return made t
      | _ =>
        if !missing then return own
        let t ← plainText (← expandWord budget operand)
        let standard ← if colon then
            worded "parameter not set or null".toList
              "parameter null or not set".toList
          else pure "parameter not set".toList
        fail (name ++ ": ".toList ++ if operand.isEmpty then standard else t)

/-- The pieces of a source that is read like a document. -/
def expandSource : Nat → Text → Eval m (List Piece)
  | 0, _ => throw .unfinished
  | budget + 1, source => do
    let s ← get
    let r := Reading.whole s.line s.aliases source
    match documentWord r (commandCut r) source with
    | .ok word => expandWord budget word
    | .error e => fail e.message

/-- The pieces of a word. -/
def expandWord : Nat → Word → Eval m (List Piece)
  | 0, _ => throw .unfinished
  | budget + 1, word => do return (← word.mapM (expandPart budget)).flatten

/-- The arguments that words make. -/
def expandWords : Nat → List Word → Eval m (List Text)
  | 0, _ => throw .unfinished
  | budget + 1, words => do
    let made ← words.mapM fun word => do
      let pieces ← expandWord budget word
      let found ← (argumentsOf (separators (← get)) pieces).mapM withFiles
      return found.flatten
    return made.flatten

-- ======================================================== programs

/-- Runs a program, in the process that is there for it. -/
def runProgram : Nat → Text → Path → Startable → List Text → Eval m Unit
  | 0, _, _, _, _ => throw .unfinished
  | budget + 1, self, path, what, arguments => do
    modify fun s => { s with bindings := environment s, options := [] }
    match what with
    | .script => runScript budget self path arguments
    | .program name =>
      match shellDialect? name with
      | some dialect => runShell budget dialect self arguments
      | none =>
        match utility? name, launcher? name with
        | some act, _ => setStatus (← act self arguments)
        | none, some act => runLaunching budget self (← act self arguments)
        | none, none => setStatus 0

/-- Runs a file that was made a program: by the program that its first line
names, or as commands. -/
def runScript : Nat → Text → Path → List Text → Eval m Unit
  | 0, _, _, _ => throw .unfinished
  | budget + 1, self, path, arguments => do
    let contents ← match ← openFile path with
      | .ok stream => pure (Stream.decode stream.bytes)
      | .error _ => pure []
    match interpreter? contents with
    | some (interpreter, operand) =>
      match ← startableAt interpreter with
      | .ok what =>
        runProgram budget interpreter interpreter what
          (operand.toList ++ path :: arguments)
      | .error _ => setStatus 126
    | none => runShell budget (← get).dialect self (path :: arguments)

/-- Goes on as a program that starts others has decided. -/
def runLaunching : Nat → Text → Launching → Eval m Unit
  | 0, _, _ => throw .unfinished
  | budget + 1, self, launching => do
    let begin_ (start : ProgramStart) (complaint : Text → Text) :
        Eval m (Option (Eval m Unit)) := do
      match ← findStartable start.name with
      | .ok (path, what) =>
          return some (runProgram budget start.name path what start.arguments)
      | .error e =>
        protest self (complaint (reasonText e))
        setStatus (if e = .notFound || e = .notDirectory then 127 else 126)
        return none
    match launching with
    | .ended status => setStatus status
    | .become start complaint =>
      if let some act ← begin_ start complaint then act
    | .wait limit start =>
      let complaint (reason : Text) : Text :=
        "failed to run command ".toList ++ quotedWord start.name ++ ": ".toList
          ++ reason
      if let some act ← begin_ start complaint then
        runWithin budget self limit start act
    | .each starts tells least =>
      setStatus 0
      let worst ← starts.foldlM (runNext budget self tells) (least, false)
      setStatus worst.1

/-- Runs the next of several programs unless one has ended them all; the
status so far and whether they have ended. -/
def runNext :
    Nat → Text → Bool → Nat × Bool → ProgramStart → Eval m (Nat × Bool)
  | 0, _, _, _, _ => throw .unfinished
  | budget + 1, self, tells, (status, ended), start => do
    if ended then return (status, true)
    if tells then
      emitLines 2 [Text.joinWith [' '] (start.name :: start.arguments)]
    match ← findStartable start.name with
    | .error e =>
      protest self (start.name ++ ": ".toList ++ reasonText e)
      return (if e = .notFound || e = .notDirectory then 127 else 126, true)
    | .ok (path, what) =>
      let channels := redirect (← get).channels 0 .void
      let process ← newProcess
      let act :=
        withChannels channels
          (runProgram budget start.name path what start.arguments)
      match ← inProcess process act with
      | .signal signal =>
        protest self (start.name ++ ": terminated by signal ".toList ++
          Number.decimal signal.number)
        return (125, true)
      | .status 0 => return (status, false)
      | .status 255 =>
        protest self
          (start.name ++ ": exited with status 255; aborting".toList)
        return (124, true)
      | .status _ => return (123, false)

/-- Does something for some time. -/
def runWithin :
    Nat → Text → TimeLimit → ProgramStart → Eval m Unit → Eval m Unit
  | 0, _, _, _, _ => throw .unfinished
  | _ + 1, self, limit, start, act => do
    let before ← get
    let last := (limit.span.map (before.clock + ·)).getD before.deadline
    set { before with deadline := min last before.deadline }
    let process ← newProcess
    let result ← attempt (inProcess process act)
    modify fun s => { s with deadline := before.deadline }
    match result with
    | .ok (.status code) => setStatus code
    | .ok (.signal signal) => throw (.killed signal)
    | .error .unfinished =>
      if before.deadline ≤ last then throw .unfinished
      modify fun s => { s with clock := last }
      if limit.tells then
        protest self
          ("sending signal ".toList ++ limit.signal.name
            ++ " to command ".toList ++
          quotedWord start.name)
      if limit.signal = .kill then throw (.killed .kill)
      setStatus (if limit.keepsStatus then 128 + limit.signal.number else 124)
    | .error stop => throw stop

/-- Starts the program of a name, in a process of its own unless it is to
take the place of the shell. -/
def startProgram : Nat → Bool → Text → List Text → Eval m Unit
  | 0, _, _, _ => throw .unfinished
  | budget + 1, isLast, name, arguments => do
    let directories ← searchPath []
    let refuse (reason : Text) (status : Nat) : Eval m Unit := do
      complain (name ++ ": ".toList ++ reason)
      setStatus status
    let missing ← absence name
    match ← commandFile? directories name with
    | none =>
      let e ← lookupFault directories name
      refuse (if e = .notFound then missing else reasonText e) 127
    | some path =>
      track name path
      match ← startableAt path with
      | .error e =>
        if e = .notFound || e = .notDirectory then refuse missing 127
        else refuse (reasonText e) 126
      | .ok what =>
        let act := do
          modify fun s => { s with bindings := handedOver s }
          runProgram budget name path what arguments
        if isLast && (← get).traps.isEmpty then
          act
          throw (.exit (← get).status)
        else
          inChild act
          deliver budget

-- ======================================================== signals and jobs

/-- Runs commands that a signal asks for. -/
def runTrap : Nat → Text → Eval m Unit
  | 0, _ => throw .unfinished
  | budget + 1, commands => do
    let before ← get
    set { before with command := none }
    keepingLine (runSource budget .argument 1 commands)
    modify fun s => { s with
        command := before.command, status := before.status }

/-- Does what a signal to the process asks for. -/
def receive : Nat → Signal → Eval m Unit
  | 0, _ => throw .unfinished
  | budget + 1, signal => do
    let kept := (← get).traps.lookup signal
    match if signal = .kill then none else kept with
    | some commands => if !commands.isEmpty then runTrap budget commands
    | none =>
      if signal.halts then throw .unfinished
      if signal.ends then throw (.killed signal)

/-- Receives the signals that came while the process waited. -/
def deliver : Nat → Eval m Unit
  | 0 => throw .unfinished
  | budget + 1 => do
    let s ← get
    let (mine, others) := s.pending.partition (·.1 == s.self)
    if !mine.isEmpty then
      set { s with pending := others }
      for (_, signal) in mine do receive budget signal

/-- Sends a signal to processes. -/
def sendSignal : Nat → Signal → List Text → Eval m Nat
  | 0, _, _ => throw .unfinished
  | budget + 1, signal, targets => do
    let mut status := 0
    for target in targets do
      let noProcess : Eval m Unit := complain "No such process\n".toList
      let s ← get
      if (decimal? target).isNone then
        fail ("Illegal number: ".toList ++ target)
      match Number.wordOfDigits? target with
      | none => status := 1; noProcess
      | some process =>
        if process = s.self || process = 0 then receive budget signal
        else if s.above.contains process then
          set { s with pending := s.pending ++ [(process, signal)] }
        else
          match s.background.find? (·.process == process) with
          | some job =>
            if signal.ends then
              set { s with
                background := s.background.filter (·.process != job.process)
                ended := (process, 128 + signal.number) :: s.ended }
          | none =>
            status := 1
            noProcess
    return status

/-- Runs a command that was not waited for. -/
def runJob : Nat → Job → Eval m Unit
  | 0, _ => throw .unfinished
  | budget + 1, job => do
    let before ← get
    set { before with
      bindings := job.bindings, arguments := job.arguments
      channels := job.channels
      directory := job.directory, clock := job.start
      tested := false, loops := 0 }
    let ending ← inProcess job.process do
      modify fun s => { s with traps := keptTraps s }
      toEnd budget (run budget true job.statement)
    let s ← get
    set { before.after s with
      background := s.background
      clock := max before.clock s.clock
      ended := (job.process, ending.code) :: s.ended }
    deliver budget

/-- Runs the commands that were not waited for. -/
def runBackground : Nat → Eval m Unit
  | 0 => throw .unfinished
  | budget + 1 => do
    let _ ← follow (fun (_ : Unit) => do
      let s ← get
      match s.background with
      | [] => return none
      | job :: rest =>
        set { s with background := rest }
        runJob budget job
        return some ()) turnLimit ()

/-- Waits for processes, or for all. -/
def wait : Nat → List Text → Eval m Nat
  | 0, _ => throw .unfinished
  | budget + 1, targets => do
    if targets.isEmpty then
      runBackground budget
      return 0
    let mut status := 0
    for target in targets do
      let process ← numberOf target
      let s ← get
      if let some job := s.background.find? (·.process == process) then
        set { s with background := s.background.filter (·.process != process) }
        runJob budget job
      let s ← get
      match s.ended.lookup process with
      | some code =>
        status := code
        if 128 < code then
          if let some t := (Signal.mk (code - 128)).report? then
            emitLines 2 [t]
      | none => status := 127
    return status

/-- Does something to the end of its process: then the commands that were
kept for that are run, and whatever has not been waited for. -/
def toEnd : Nat → Eval m Unit → Eval m Unit
  | 0, _ => throw .unfinished
  | budget + 1, act => do
    let settle (result : Except Stop Unit) : Eval m Unit :=
      match result with
      | .ok _ => return
      | .error (.exit code) => setStatus (code % 256)
      | .error (.return_ code) => setStatus (code % 256)
      | .error (.leave _) => return
      | .error (.again _) => return
      | .error .mistake => setStatus 2
      | .error stop => throw stop
    settle (← attempt act)
    let s ← get
    match s.traps.lookup .exit with
    | none => pure ()
    | some commands =>
      set { s with
          traps := s.traps.filter (·.1 != Signal.exit)
          command := none, tested := false }
      let result ← attempt (runSource budget .argument 1 commands)
      match result with
      | .ok _ => setStatus s.status
      | result => settle result
    if isGathered ((← get).channels.lookup 1) then
      let status := (← get).status
      runBackground budget
      setStatus status

-- ======================================================== commands

/-- Does a command of the shell that is part of it. -/
def runBuiltin : Nat → Text → List Text → Eval m Nat
  | 0, _, _ => throw .unfinished
  | budget + 1, name, arguments => do
    match String.ofList name with
    | "eval" =>
      if arguments.isEmpty then return 0
      keepingLine
        (runSource budget .argument 1 (Text.joinWith [' '] arguments))
      return (← get).status
    | "." =>
      match (← optionsOf "" arguments).operands with
      | [] => return 0
      | name :: _ =>
        match ← sourcedFile? name with
        | none => fail (name ++ ": not found".toList)
        | some path =>
          match ← openFile path with
          | .ok stream =>
            asCommand path (asFunction
              (keepingLine
                (runSource budget .file 1 (Stream.decode stream.bytes))))
            return (← get).status
          | .error .isDirectory => return 0
          | .error e =>
            complainOfFile "No such file" "cannot open" path e
            throw .mistake
    | "exec" =>
      match arguments with
      | [] => return 0
      | name :: arguments =>
        let refuse (reason : Text) (status : Nat) : Eval m Nat := do
          complain (name ++ ": ".toList ++ reason)
          throw (.exit status)
        let directories ← searchPath []
        match ← commandFile? directories name with
        | none =>
          let e ← lookupFault directories name
          if e = .notFound then refuse "not found".toList 127
          else refuse (reasonText e) 126
        | some path =>
          match ← startableAt path with
          | .error e =>
            if e = .notFound || e = .notDirectory then
              refuse "not found".toList 127
            else refuse (reasonText e) 126
          | .ok what =>
            modify fun s => { s with
              bindings := handedOver s, traps := keptTraps s, command := none }
            runProgram budget name path what arguments
            throw (.exit (← get).status)
    | "type" =>
      let mut status := 0
      for name in arguments do
        if !(← describe true name) then status := 127
      return status
    | "hash" => hash arguments
    | "wait" => wait budget (← optionsOf "" arguments).operands
    | "kill" =>
      match ← killRequest arguments with
      | .names statuses => showSignals statuses
      | .send signal targets => sendSignal budget signal targets
    | _ =>
      match builtin? name with
      | some act => act arguments
      | none => return 0

/-- Does a command of the shell, or starts a program, but calls no
function; or tells what the name stands for. -/
def runCommand : Nat → List Text → Eval m Unit
  | 0, _ => throw .unfinished
  | budget + 1, arguments => do
    let r ← asCommand "command".toList (optionsOf "pvV" arguments)
    match r.operands, r.lastOf? "vV".toList with
    | [], _ => setStatus 0
    | name :: _, some c =>
        setStatus (if ← describe (c = 'V') name then 0 else 127)
    | name :: arguments, none =>
      if name = "command".toList then runCommand budget arguments
      else if builtinNames.contains name then
        forgiving (runOwn budget name arguments)
      else startProgram budget false name arguments

/-- Does a command of the shell. Nobody to take what it prints makes it
fail. -/
def runOwn : Nat → Text → List Text → Eval m Unit
  | 0, _, _ => throw .unfinished
  | budget + 1, name, arguments => do
    let act : Eval m Unit := asCommand name do
      setStatus (← runBuiltin budget name arguments)
      if ["echo", "printf"].any (name == String.toList ·) then
        if ((← get).channels.lookup 1).isNone then
          complain (name ++ ": I/O error".toList)
          setStatus 1
    if specialNames.contains name then act else forgiving act

/-- Starts what a name stands for with its arguments. -/
def start : Nat → Bool → Text → List Text → Eval m Unit
  | 0, _, _, _ => throw .unfinished
  | budget + 1, isLast, name, arguments => do
    let isSource : Bool :=
      name == "source".toList && (← get).dialect == .verbose
    if isSource then forgiving (runOwn budget ['.'] arguments)
    else if specialNames.contains name then runOwn budget name arguments
    else if name = "command".toList then
      forgiving (runCommand budget arguments)
    else
      match (← get).functions.lookup name with
      | some body => callFunction arguments (run budget false body)
      | none =>
        if builtinNames.contains name then runOwn budget name arguments
        else startProgram budget isLast name arguments

/-- Leads channels where redirections say, as long as that can be. Where they
say is found out for all of them first. -/
def redirectAll : Nat → List Redirection → Eval m Bool
  | 0, _ => throw .unfinished
  | budget + 1, redirections => do
    let targets ← redirections.mapM fun r => do
      let target ← plainText (← expandWord budget r.target)
      if r.kind = .duplicate && !isChannelName target then failOfChannel
      return (r, target)
    let refused ← firstThat
        (fun (r, target) => return !(← applyRedirection r target)) targets
    return refused.isNone

/-- The values that assignments give. -/
def assignedValues : Nat → List (Text × Word) → Eval m (List (Text × Text))
  | 0, _ => throw .unfinished
  | budget + 1, assignments =>
    assignments.mapM fun (name, word) =>
      do return (name, ← plainText (← expandWord budget word))

/-- Shows a command before it is done, if that is asked for. -/
def showCommand : Nat → Channels → List (Text × Text) → List Text → Eval m Unit
  | 0, _, _, _ => throw .unfinished
  | budget + 1, channels, values, arguments => do
    let s ← get
    if s.hasOption 'x' then
      let source := (s.bindings.lookup "PS4".toList).getD []
      let front ← plainText (← expandSource budget source)
      withChannels channels (emitText 2 (front ++ Text.joinWith [' ']
        (values.map (fun (name, v) => name ++ '=' :: v) ++ arguments)
          ++ ['\n']))

/-- Does a command that is no compound one. -/
def runSimple : Nat → Bool → SimpleCommand → Eval m Unit
  | 0, _, _ => throw .unfinished
  | budget + 1, isLast, c => do
    modify fun s => { s with line := c.line, substitution := none }
    let arguments ← expandWords budget c.words
    let channels := (← get).channels
    let name := arguments.headD []
    let isSpecial := !arguments.isEmpty && specialNames.contains name
    let act : Eval m Unit := do
      if !(← redirectAll budget c.redirections) then
        if isSpecial then throw .mistake
        setStatus (← refusedStatus)
      else if arguments.isEmpty then
        for (name, word) in c.assignments do
          let t ← plainText (← expandWord budget word)
          setVariable name t
          showCommand budget channels [(name, t)] []
        setStatus ((← get).substitution.getD 0)
      else
        let values ← assignedValues budget c.assignments
        showCommand budget channels values arguments
        if isSpecial then
          for (name, v) in values do setVariable name v
          if name = "exec".toList && 1 < arguments.length then
            modify fun s => { s with
                exported := values.map (·.1) ++ s.exported }
          start budget isLast name (arguments.drop 1)
        else if values.isEmpty then start budget isLast name (arguments.drop 1)
        else withVariables values (start budget isLast name (arguments.drop 1))
    let result ← attempt act
    let lasts := arguments = ["exec".toList] && result.isOk
    if !lasts then modify fun s => { s with channels := channels }
    resume result
    checkFailure

/-- Does a command. -/
def run : Nat → Bool → Statement → Eval m Unit
  | 0, _, _ => throw .unfinished
  | budget + 1, isLast, statement => do
    if (← get).hasOption 'n' then return
    match statement with
    | .nothing => return
    | .simple c => runSimple budget isLast c
    | .pipe first second =>
      let before ← get
      let stream ← captured (inChild (toEnd budget (run budget true first)))
      let between := (← get).clock
      modify fun s => { s with clock := before.clock, status := before.status }
      withInput stream (inChild (toEnd budget (run budget true second)))
      modify fun s => { s with clock := max between s.clock }
      deliver budget
      checkFailure
    | .negated s =>
      whileTested (run budget false s)
      setStatus (if (← get).status = 0 then 1 else 0)
    | .both first second =>
      whileTested (run budget false first)
      if (← get).status = 0 then run budget isLast second
    | .either first second =>
      whileTested (run budget false first)
      if (← get).status ≠ 0 then run budget isLast second
    | .sequence first second =>
      run budget false first
      run budget isLast second
    | .background s =>
      let process ← newProcess
      modify fun machine => { machine with
        background :=
          machine.background
            ++ [⟨process, machine.clock, s, machine.bindings,
              machine.arguments, redirect machine.channels 0 .void,
              machine.directory⟩]
        lastJob := some process, status := 0 }
    | .subshell s =>
      if isLast && (← get).traps.isEmpty then run budget true s
      else
        inChild (toEnd budget (run budget true s))
        deliver budget
        checkFailure
    | .conditional test yes no =>
      whileTested (run budget false test)
      if (← get).status = 0 then run budget isLast yes
      else
        setStatus 0
        run budget isLast no
    | .loop until_ test body => runLoop budget until_ test body
    | .each line name words body =>
      modify fun s => { s with line := line }
      let values ← match words with
        | some words => expandWords budget words
        | none => pure (← get).arguments
      setStatus 0
      insideLoop (eachWhile (fun v => do
        setVariable name v
        afterBody (run budget false body)) values)
    | .choice line subject clauses =>
      modify fun s => { s with line := line }
      let t ← plainText (← expandWord budget subject)
      setStatus 0
      let found ← firstThat (fun (patterns, _) => do
        let fitting ← firstThat (fun word => do
          return (patternOf (← expandWord budget word)).fits t) patterns
        return fitting.isSome) clauses
      if let some (_, body) := found then run budget isLast body
    | .define name body =>
      modify fun s => { s with
        functions :=
          (name, body) :: s.functions.filter (·.1 != name), status := 0 }
    | .redirected line s redirections =>
      modify fun machine => { machine with line := line }
      let before := (← get).channels
      finally_ (do
        if ← redirectAll budget redirections then run budget false s
          else setStatus (← refusedStatus))
        (modify fun machine => { machine with channels := before })

/-- Repeats a body as long as a test succeeds, or until it does. -/
def runLoop : Nat → Bool → Statement → Statement → Eval m Unit
  | 0, _, _, _ => throw .unfinished
  | budget + 1, until_, test, body => do
    let turn (last : Nat) : Eval m (Option Nat) := do
      if !(← afterBody (whileTested (run budget false test))) then return none
      if ((← get).status = 0) = until_ then
        setStatus last
        return none
      if ← afterBody (run budget false body) then return some (← get).status
      else return none
    insideLoop do
      let _ ← follow turn turnLimit 0

-- ======================================================== sources

/-- Runs a source from a line on, one line of commands at a time. -/
def runSource : Nat → SourceKind → Nat → Text → Eval m Unit
  | 0, _, _, _ => throw .unfinished
  | budget + 1, kind, first, source => do
    let last ← follow (fun (state : Nat × Text × Bool) => do
      let (first, source, ran) := state
      if source.isEmpty then return none
      match readNext first (← get).aliases (source.length + 2) 1 source with
      | .error (e, line) =>
        complainAt line e.message
        throw .mistake
      | .ok r =>
        if kind = .file && (← get).hasOption 'v' then
          emitText 2 (source.take (source.length - r.rest.length))
        modify fun s => { s with lastLine := first + r.lines }
        run budget (kind = .word && r.rest.isEmpty) r.statement
        let isEmpty : Bool := match r.statement with
          | .nothing => true
          | _ => false
        return some (first + r.lines, r.rest, ran || !isEmpty)) turnLimit
      (first, source, false)
    if !last.2.2 then setStatus 0

/-- Runs a shell's task. -/
def runTask : Nat → Task → Eval m Unit
  | 0, _ => throw .unfinished
  | budget + 1, task => do
    match task with
    | .source source name arguments =>
      modify fun s => { s with
          name := name.getD s.name, arguments := arguments }
      runSource budget .argument 1 source
    | .file p arguments =>
      match ← openFile p with
      | .ok stream =>
        modify fun s => { s with name := p, arguments := arguments }
        runSource budget .file 1 (Stream.decode stream.bytes)
      | .error .isDirectory => return
      | .error e =>
        let s ← get
        if s.dialect = .verbose then
          emitLines 2
            [s.name ++ ": ".toList ++ p ++ ": ".toList ++ reasonText e]
          throw (.exit 127)
        complainOfFile "No such file" "cannot open" p e
        throw .mistake
    | .given arguments =>
      modify fun s => { s with arguments := arguments }
      runSource budget .file 1 (Stream.decode (← drain 0).bytes)
    | .missingSource => fail "-c requires an argument".toList

/-- Runs a shell of its own with arguments. It has the variables that
programs are started with, and the commands kept for its end are run
whether it exits or comes to its end. -/
def runShell : Nat → Dialect → Text → List Text → Eval m Unit
  | 0, _, _, _ => throw .unfinished
  | budget + 1, dialect, program, arguments => do
    modify (Machine.asShell dialect program)
    match Invocation.read arguments with
    | .error refusal =>
      complain refusal.message
      setStatus 2
    | .ok i =>
      modify fun s => { s with options := i.options }
      if i.shows then showOptions false
      toEnd budget (runTask budget i.task)

end

end Evaluation

end GridScript.Shell
