/-
The command language as a tree. Words are kept in parts, because what a
part becomes, and whether it may then be split or act as a pattern, depends
on how it was quoted. Commands inside words are kept as source: they are
read again, line by line, when they are run.
-/
import GridScript.Text.Word

namespace GridScript.Shell

/-- What is made of a parameter's value, with the help of an operand. -/
inductive ParameterForm where
  /-- The value, and the operand after it. -/
  | plain
  | length
  /-- The operand in its place (`-`), the same and kept (`=`), a complaint
  (`?`), or the operand if there is a value (`+`). With a colon an empty
  value counts as none. -/
  | instead (colon : Bool) (how : Char)
  /-- The value without what the operand matches at one end. -/
  | without (atEnd longest : Bool)
  /-- Nothing that there is: a mistake, but only when it is come to. -/
  | unknown
  deriving DecidableEq

/-- A part of a word. -/
inductive WordPart where
  | text (t : Text) (quoted : Bool)
  /-- The home directory of a user, or of whoever runs the shell. -/
  | home (user : Text)
  | parameter (name : Text) (form : ParameterForm) (operand : List WordPart)
    (quoted : Bool)
  /-- What the commands of a source print; the source begins in a line. -/
  | command (line : Nat) (source : Text) (quoted : Bool)
  | arithmetic (expression : List WordPart) (quoted : Bool)
  /-- Parts that are one argument, whatever they stand for. -/
  | joined (parts : List WordPart)

/-- A word. -/
abbrev Word := List WordPart

/-- What a redirection does. -/
inductive RedirectionKind where
  | read
  | write
  | append
  /-- The file is written even if it is there and files are protected. -/
  | force
  /-- The file is read and written, and left as it is. -/
  | both
  /-- The channel becomes another one. -/
  | duplicate
  /-- The word itself is read. -/
  | document
  deriving DecidableEq

/-- A redirection of a channel. -/
structure Redirection where
  channel : Nat
  kind : RedirectionKind
  target : Word

/-- A command that is no compound one. -/
structure SimpleCommand where
  line : Nat
  assignments : List (Text × Word)
  words : List Word
  redirections : List Redirection

/-- A command. -/
inductive Statement where
  | nothing
  | simple (command : SimpleCommand)
  | pipe (first second : Statement)
  | negated (s : Statement)
  | both (first second : Statement)
  | either (first second : Statement)
  | sequence (first second : Statement)
  | background (s : Statement)
  | subshell (s : Statement)
  | conditional (test yes no : Statement)
  /-- Repeats as long as the test succeeds or, if `until_`, fails. -/
  | loop (until_ : Bool) (test body : Statement)
  /-- Repeats for each word, or for each argument. -/
  | each (line : Nat) (name : Text) (words : Option (List Word))
    (body : Statement)
  | choice (line : Nat) (subject : Word)
    (clauses : List (List Word × Statement))
  | define (name : Text) (body : Statement)
  | redirected (line : Nat) (s : Statement) (redirections : List Redirection)

instance : Inhabited Statement := ⟨.nothing⟩

end GridScript.Shell
