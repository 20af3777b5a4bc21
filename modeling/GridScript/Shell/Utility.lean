/-
The programs by their names: those that do all they do themselves, and those
that start others.
-/
import GridScript.Shell.Utility.Blocks
import GridScript.Shell.Utility.Editor
import GridScript.Shell.Utility.Exchange
import GridScript.Shell.Utility.Launcher
import GridScript.Shell.Utility.Modules

namespace GridScript.Shell

section Utilities

variable {m : Type → Type} [Monad m] [FileTree m]

/-- The program of a name. -/
def utility? (name : Text) : Option (Utility m) :=
  match String.ofList name with
  | "[" => some testInBrackets
  | "basename" => some basename
  | "cat" => some cat
  | "chmod" => some chmod
  | "cp" => some cp
  | "cut" => some cut
  | "dd" => some dd
  | "dirname" => some dirname
  | "echo" => some echo
  | "egrep" => some (grepWith true)
  | "expr" => some expr
  | "false" => some (constantly 1)
  | "fgrep" =>
      some fun self arguments => grepWith false self (['-', 'F'] :: arguments)
  | "fold" => some fold
  | "grep" => some (grepWith false)
  | "head" => some head
  | "ls" => some ls
  | "mkdir" => some mkdir
  | "mv" => some mv
  | "nl" => some nl
  | "paste" => some paste
  | "printenv" => some printenv
  | "printf" => some printfProgram
  | "pwd" => some pwd
  | "python3" => some python
  | "rev" => some rev
  | "rm" => some rm
  | "rmdir" => some rmdir
  | "sed" => some sed
  | "seq" => some seq
  | "sleep" => some sleep
  | "sort" => some sort
  | "tac" => some tac
  | "tail" => some tail
  | "tee" => some tee
  | "test" => some test
  | "touch" => some touch
  | "tr" => some tr
  | "true" => some (constantly 0)
  | "uname" => some uname
  | "uniq" => some uniq
  | "wc" => some wc
  | "which" => some which
  | "yes" => some yes
  | _ => none

/-- The program of a name that starts others. -/
def launcher? (name : Text) : Option (Launcher m) :=
  match String.ofList name with
  | "env" => some env
  | "nice" => some nice
  | "nohup" => some nohup
  | "timeout" => some timeout
  | "xargs" => some xargs
  | _ => none

end Utilities

end GridScript.Shell
