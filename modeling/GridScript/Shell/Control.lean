/-
What the evaluation of commands is made of, as far as nothing has to be
evaluated for it: loops, failures, functions, processes of their own, and
what names stand for.
-/
import GridScript.Shell.Invocation
import GridScript.Shell.Redirect
import GridScript.Shell.Utility

namespace GridScript.Shell

section Control

variable {m : Type → Type} [Monad m] [FileTree m]

-- ======================================================== loops and failures

/-- Goes from one state to the next as long as there is one. What goes on
for too long is taken to go on for ever. -/
def follow {σ : Type} (next : σ → Eval m (Option σ)) : Nat → σ → Eval m σ
  | 0, _ => throw .unfinished
  | turns + 1, s => do
    match ← next s with
    | some s => follow next turns s
    | none => return s

/-- Does something inside of one more loop. -/
def insideLoop (act : Eval m Unit) : Eval m Unit := do
  let before := (← get).loops
  modify fun s => { s with loops := before + 1 }
  finally_ act (modify fun s => { s with loops := before })

/-- What to do about the end of a loop's body: go on, leave, or leave more
loops than this. -/
def afterBody (act : Eval m Unit) : Eval m Bool := do
  match ← attempt act with
  | .ok _ => return true
  | .error (.leave n) =>
    setStatus 0
    if n ≤ 1 then return false else throw (.leave (n - 1))
  | .error (.again n) =>
    setStatus 0
    if n ≤ 1 then return true else throw (.again (n - 1))
  | .error stop => throw stop

/-- Does something whose failure something else looks at. -/
def whileTested (act : Eval m Unit) : Eval m Unit := do
  let before := (← get).tested
  modify fun s => { s with tested := true }
  finally_ act (modify fun s => { s with tested := before })

/-- Ends the shell if it ends with the first failure and this was one. -/
def checkFailure : Eval m Unit := do
  let s ← get
  if s.hasOption 'e' && !s.tested && s.status != 0 then throw (.exit s.status)

/-- Does something that can be returned from. -/
def asFunction (act : Eval m Unit) : Eval m Unit := do
  match ← attempt act with
  | .ok _ => return
  | .error (.return_ code) => setStatus code
  | .error stop => throw stop

/-- Does something after which the source that was being read is as far as it
was. -/
def keepingLine (act : Eval m Unit) : Eval m Unit := do
  let before := (← get).lastLine
  finally_ act (modify fun s => { s with lastLine := before })

/-- Does something after which a mistake is a failure only. -/
def forgiving (act : Eval m Unit) : Eval m Unit := do
  match ← attempt act with
  | .ok _ => return
  | .error .mistake => setStatus 2
  | .error stop => throw stop

-- ======================================================== variables

/-- Where the shell keeps a variable among the others. -/
def bucketOf (name : Text) : Nat :=
  let codes := name.map Char.toNat
  (codes.foldl (· + ·) (16 * codes.headD 0)) % 39

/-- The variables that programs are given, in the order in which they are
given them. -/
def handedOver (s : Machine) : List (Text × Text) :=
  (environment s).mergeSort fun a b => decide (bucketOf a.1 ≤ bucketOf b.1)

/-- Gives variables values for a command, for as long as it runs. -/
def withVariables (values : List (Text × Text)) (act : Eval m Unit) :
    Eval m Unit := do
  let before ← get
  for (name, v) in values do
    setVariable name v
    modify fun s => { s with exported := s.exported.insert name }
  finally_ act do
    for (name, _) in values do
      restoreVariable name (before.bindings.lookup name)
    let isLasting (name : Text) : Bool :=
      (values.lookup name).isNone || before.exported.contains name
    modify fun s => { s with exported := s.exported.filter isLasting }

/-- Calls a function: its arguments are its own, and so are the variables
that it declares. -/
def callFunction (arguments : List Text) (body : Eval m Unit) :
    Eval m Unit := do
  let before ← get
  if 1000 ≤ before.calls then
    fail "Maximum function recursion depth (1000) reached".toList
  set { before with
    arguments := arguments, hidden := some [], loops := 0
    calls := before.calls + 1, optionPlace := (1, 0) }
  finally_ (asFunction body) do
    for h in (← get).hidden.getD [] do
      if h.name = ['-'] then
        modify fun s => { s with options := h.value.getD [] }
      else
        restoreVariable h.name h.value
        let others := (← get).exported.filter (· != h.name)
        modify fun s => { s with
            exported := if h.isExported then h.name :: others else others }
    modify fun s => { s with
      arguments := before.arguments, hidden := before.hidden
      loops := before.loops, calls := before.calls
      optionPlace := before.optionPlace }

-- ======================================================== processes

/-- The traps that a new process keeps: it ignores what was ignored. -/
def keptTraps (s : Machine) : List (Signal × Text) :=
  s.traps.filter (·.2.isEmpty)

/-- Does something in a new process and waits for it; a signal that has
ended it is told of. -/
def inChild (act : Eval m Unit) : Eval m Unit := do
  let process ← newProcess
  let ending ← inProcess process do
    modify fun s => { s with traps := keptTraps s }
    act
  if let .signal signal := ending then
    if let some t := signal.report? then emitLines 2 [t]

/-- Is what goes to a channel gathered for the shell? -/
def isGathered : Option Channel → Bool
  | some (.buffer n) => decide (1 < n)
  | _ => false

/-- The state as a shell of its own begins with it, under a name: it has
the variables that programs are started with. -/
def Machine.asShell (dialect : Dialect) (name : Text) (s : Machine) :
    Machine :=
  let isName (t : Text) : Bool :=
    (t.head?.map Text.isWordStart).getD false && t.all Text.isWordChar
  let own : List (Text × Text) :=
    [("IFS".toList, " \t\n".toList), ("OPTIND".toList, ['1']),
      ("PS1".toList, "# ".toList), ("PS2".toList, "> ".toList),
      ("PS4".toList, "+ ".toList),
    ("PPID".toList, Number.decimal (s.above.headD 1)),
    ("PATH".toList,
      "/usr/local/sbin:/usr/local/bin:/usr/sbin:/usr/bin:/sbin:/bin".toList)]
  let given := (environment s).filter fun (t, _) =>
    isName t && !(["IFS", "OPTIND", "PPID"].any (t == String.toList ·))
  let bindings := given.foldl (fun vs (t, v) => withBinding t (some v) vs) own
  { s with
    dialect := dialect, name := name, process := s.self, arguments := []
    bindings := withBinding "PWD".toList (some s.directory) bindings
    exported := "PWD".toList :: given.map (·.1)
    protected_ := [], hidden := none, functions := []
    aliases := [], status := 0
    substitution := none, tested := false, lastJob := none, options := []
    traps := keptTraps s, command := none, line := 0, loops := 0, calls := 0
    optionPlace := (1, 0), tracked := [] }

-- ======================================================== names

/-- The file of commands that a name stands for: one in the directories of
programs unless it holds a slash. -/
def sourcedFile? (name : Text) : Eval m (Option Path) := do
  if name.contains '/' then return some name
  else placeWhere? isFileAt (← searchPath []) name

/-- Tells what a name stands for; in a word or in a sentence. -/
def describe (sentence : Bool) (name : Text) : Eval m Bool := do
  let s ← get
  let tell (word what : Text) : Eval m Bool := do
    emitLines 1 [if sentence then name ++ what else word]
    return true
  if reservedWords.contains name then tell name " is a shell keyword".toList
  else if let some value := s.aliases.lookup name then
    tell ("alias ".toList ++ name ++ '=' :: inQuotes value)
      (" is an alias for ".toList ++ value)
  else if specialNames.contains name then
    tell name " is a special shell builtin".toList
  else if (s.functions.lookup name).isSome then
    tell name " is a shell function".toList
  else if builtinNames.contains name then
    tell name " is a shell builtin".toList
  else
    let isThere (p : Path) : Eval m Bool :=
      return (← entryAt p).isOk || (← isStartable p)
    match ← commandFile? (← searchPath []) name with
    | some p =>
      if ← isThere p then
        let tracked := (s.tracked.lookup name).isSome && !name.contains '/'
        tell p
          ((if tracked then " is a tracked alias for " else " is ").toList
            ++ p)
      else
        if sentence then emitLines 1 [name ++ ": not found".toList]
        return false
    | none =>
      if sentence then emitLines 1 [name ++ ": not found".toList]
      return false

/-- Remembers the file of a program. -/
def track (name : Text) (p : Path) : Eval m Unit := do
  if !name.contains '/' then
    modify fun s => { s with
        tracked := s.tracked.filter (·.1 != name) ++ [(name, p)] }

/-- Remembers where programs are, or tells where they were found. -/
def hash : Builtin m := fun arguments => do
  let r ← optionsOf "rv" arguments
  if r.has 'r' then
    modify fun s => { s with tracked := [] }
    return 0
  if r.operands.isEmpty then
    emitLines 1 ((← get).tracked.map (·.2))
    return 0
  let mut status := 0
  for name in r.operands do
    let isOwn :=
      builtinNames.contains name || ((← get).functions.lookup name).isSome
    match isOwn, ← commandFile? (← searchPath []) name with
    | true, _ => pure ()
    | false, some p => track name p
    | false, none =>
      complain (name ++ ": not found".toList)
      status := 1
  return status

end Control

end GridScript.Shell
