/-
The arguments of the command line. Options may stand anywhere; what is no
option is a command or one of its arguments. The first argument that asks
for help or cannot be understood decides, and nothing after it is looked
at.
-/
import GridScript.Project.Export
import GridScript.Storage.Path

namespace GridScript.CommandLine

/-- What the arguments say. -/
structure Options where
  configFile : Option Path
  timeoutSeconds : Option Nat
  moduleDir : Option Path
  export_ : Export.Options
  /-- The command and its arguments. -/
  positional : List Text

namespace Options

/-- Nothing said: label bands are exported, formulas are not. -/
def standard : Options := ⟨none, none, none, ⟨true, false⟩, []⟩

/-- What the arguments ask for. -/
inductive Request where
  | help
  | command (o : Options)

/-- Why arguments are not understood. -/
inductive Misuse where
  | noConfigFile
  | noModuleDir
  | noTimeout
  | unknown (option : Text)
  deriving DecidableEq

/-- The wording of a misuse. -/
def Misuse.message : Misuse → Text
  | noConfigFile => "--config requires a file path".toList
  | noModuleDir => "--module-dir requires a directory".toList
  | noTimeout => "--timeout requires a positive number of seconds".toList
  | unknown option => "Unknown option: ".toList ++ option

/-- A number of seconds, at least one. -/
def seconds? (t : Text) : Option Nat := (Number.readWord? t).filter (0 < ·)

/-- The options that take the argument after them. -/
inductive Valued where
  | config
  | moduleDir
  | timeout

/-- An argument by itself. -/
inductive Argument where
  | help
  | valued (v : Valued)
  | includeFormulas
  | noLabels
  | unknown
  | positional

/-- What kind of argument a text is. -/
def classify (t : Text) : Argument :=
  if t = "-h".toList ∨ t = "--help".toList then .help
  else if t = "--config".toList then .valued .config
  else if t = "--module-dir".toList then .valued .moduleDir
  else if t = "--timeout".toList then .valued .timeout
  else if t = "--include-formulas".toList then .includeFormulas
  else if t = "--no-labels".toList then .noLabels
  else if t.head? = some '-' then .unknown
  else .positional

/-- The misuse of an option whose value is missing. -/
def Valued.missing : Valued → Misuse
  | config => .noConfigFile
  | moduleDir => .noModuleDir
  | timeout => .noTimeout

/-- The options after one of them has been given a value. -/
def setValue (o : Options) (value : Text) : Valued → Except Misuse Options
  | .config => .ok { o with configFile := some value }
  | .moduleDir => .ok { o with moduleDir := some value }
  | .timeout =>
    match seconds? value with
    | some n => .ok { o with timeoutSeconds := some n }
    | none => .error .noTimeout

/-- Reads arguments after options that have been read. -/
def readFrom (o : Options) : List Text → Except Misuse Request
  | [] => .ok (.command o)
  | t :: ts =>
    match classify t with
    | .help => .ok .help
    | .includeFormulas =>
        readFrom { o with export_ := { o.export_ with formulas := true } } ts
    | .noLabels =>
        readFrom { o with export_ := { o.export_ with labels := false } } ts
    | .unknown => .error (.unknown t)
    | .positional => readFrom { o with positional := o.positional ++ [t] } ts
    | .valued v =>
      match ts with
      | [] => .error v.missing
      | value :: rest => (o.setValue value v).bind fun o => readFrom o rest

/-- Reads arguments. -/
def read (arguments : List Text) : Except Misuse Request :=
  readFrom standard arguments

end Options

end GridScript.CommandLine
