/-
The programs that this library knows, and where they stand.
-/
import GridScript.Storage.Path

namespace GridScript.Shell

/-- The names of the programs that are files of their own. -/
def programNames : List Text :=
  ["[", "basename", "bash", "cat", "chmod", "cp", "cut", "dash", "dd",
    "dirname", "echo", "egrep", "env", "expr", "false", "fgrep", "fold",
    "grep", "head", "ls", "mkdir", "mv", "nice", "nl",
    "nohup", "paste", "printenv", "printf", "pwd", "python3", "rev", "rm",
    "rmdir", "sed",
    "seq", "sh", "sleep", "sort", "tac", "tail", "tee", "test", "timeout",
    "touch", "tr",
    "true", "uname", "uniq", "wc", "which", "xargs", "yes"].map String.toList

/-- The directories that programs stand in, by the names from the root on. -/
def programPlaces : List (List Text) :=
  [["usr".toList, "bin".toList], ["bin".toList]]

/-- The program that stands at a path, however the path is written. -/
def programAt? (p : Path) : Option Text := do
  if p.getLast? = some '/' then none
  let names ← Path.wayFromRoot? p
  let name ← names.getLast?
  if programPlaces.contains names.dropLast && programNames.contains name then
    some name else none

end GridScript.Shell
