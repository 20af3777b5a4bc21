/-
The settings of a run. They are read from JSON, or from the configuration
file of the command line; every setting has a value of its own when it is
not given, and a setting that is not known is refused.
-/
import GridScript.Json.Fields
import GridScript.Json.Reader
import GridScript.Script.Vocabulary
import GridScript.Storage.Path

namespace GridScript

/-- How scripts are run. -/
structure RunConfig where
  interpreter : Path
  /-- The arguments in front of the script; none means those that run the
  helper module. -/
  entry : List Text
  /-- The directory that holds the helper module. -/
  moduleDir : Option Path
  helperModule : Text
  timeoutSeconds : Nat
  /-- How many bytes of each output are kept. -/
  maxOutputBytes : Nat
  deriving DecidableEq

namespace RunConfig

/-- The settings when none are given. -/
def standard : RunConfig where
  interpreter := "python3".toList
  entry := []
  moduleDir := none
  helperModule := Script.defaultModule
  timeoutSeconds := 30
  maxOutputBytes := 4 * 1024 * 1024

instance : Inhabited RunConfig := ⟨standard⟩

/-- The arguments in front of the script. -/
def entryArguments (c : RunConfig) : List Text :=
  if c.entry.isEmpty then ["-m".toList, c.helperModule ++ ".runner".toList]
  else c.entry

/-- The names of the settings, in the order of their declaration. -/
def settingNames : List Text :=
  ["interpreter", "entry", "module_dir", "helper_module", "timeout_secs",
    "max_output_bytes"].map
    String.toList

/-- Reads settings; one that is not known or given twice is refused. -/
def ofJson? (j : Json) : Option RunConfig := do
  match ← Json.fields? settingNames true j with
  | [interpreter, entry, moduleDir, helperModule, timeout, maxOutput] =>
    return {
      interpreter := ← Json.defaulted? standard.interpreter Json.asText?
        interpreter
      entry := ← Json.defaulted? standard.entry
        (Json.asList? Json.asText?) entry
      moduleDir := ← Json.defaulted? standard.moduleDir
        (Json.asOptional? Json.asText?) moduleDir
      helperModule := ← Json.defaulted? standard.helperModule Json.asText?
        helperModule
      timeoutSeconds := ← Json.defaulted? standard.timeoutSeconds
        Json.asWord? timeout
      maxOutputBytes := ← Json.defaulted? standard.maxOutputBytes Json.asWord?
        maxOutput }
  | _ => none

/-- Reads the text of settings. -/
def parse? (t : Text) : Option RunConfig := (Json.read? t).bind ofJson?

end RunConfig

end GridScript
