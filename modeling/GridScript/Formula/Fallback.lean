/-
Formulas that are handed to the evaluator as text. Only the names of
aggregates are replaced, by functions of the array library: a name in
upper case that is a word of its own, outside string literals, with
nothing before it that would make it part of another name, and with an
opening parenthesis right after it. Everything else is kept.

The text is passed once from left to right. Where a name is replaced, its
own characters are then passed over.
-/
import GridScript.Formula.Aggregate
import GridScript.Text.Word

namespace GridScript.Formula

/-- Where in a formula the next character stands. -/
inductive Place where
  /-- Outside string literals, after some character. -/
  | outside (before : Option Char)
  /-- In a literal that ends with this quote. -/
  | inside (quote : Char)
  /-- In a literal, after a backslash. -/
  | escaped (quote : Char)
  /-- In a replaced name, with this many of its characters after the next. -/
  | replaced (more : Nat)

/-- Would a name after this character be part of another one? -/
def joinsName : Option Char → Bool
  | some c => Text.isWordChar c || c == '.'
  | none => false

/-- The replacement of the word that a text begins with, if that is the
upper-case name of an aggregate with a function to call and is called. -/
def replacement? (t : Text) : Option Text := do
  let name := Text.word t
  let aggregate ← Aggregate.ofName? name
  if aggregate.formulaName = name ∧ (Text.afterWord t).head? = some '(' then
    aggregate.arrayName?
  else none

/-- The place after the first character of a replaced name. -/
def afterFirst (c : Char) : Text → Place
  | [] => .outside (some c)
  | _ :: more => .replaced more.length

/-- A text from a place on, with the names in it replaced. -/
def renameFrom : Place → Text → Text
  | _, [] => []
  | .replaced 0, c :: t => renameFrom (.outside (some c)) t
  | .replaced (more + 1), _ :: t => renameFrom (.replaced more) t
  | .escaped quote, c :: t => c :: renameFrom (.inside quote) t
  | .inside quote, c :: t =>
    c :: renameFrom
      (if c = '\\' then .escaped quote
        else if c = quote then .outside (some c)
        else .inside quote) t
  | .outside before, c :: t =>
    if c = '\'' ∨ c = '"' then c :: renameFrom (.inside c) t
    else if Text.isWordStart c && !joinsName before then
      match replacement? (c :: t) with
      | some name => name ++ renameFrom (afterFirst c (Text.word t)) t
      | none => c :: renameFrom (.outside (some c)) t
    else c :: renameFrom (.outside (some c)) t

/-- The text of a formula for the evaluator. -/
def fallbackText (expr : Text) : Text := renameFrom (.outside none) expr

end GridScript.Formula
