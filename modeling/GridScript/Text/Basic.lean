/-
Text, as every rule of this library sees it: the list of its characters.
Scripts, identifiers, formulas and addresses are all read one character
at a time and cut at characters, so the list is the shape in which those
rules are stated and in which they are reasoned about; strings appear
only where the program meets the outside.

This module holds the cuts and joins that the rest builds on: splitting
at a separator, cutting a text into lines with and without their
terminators, dropping a known beginning, and replacing one part by
another.
-/
namespace GridScript

/-- A text, character by character. -/
abbrev Text := List Char

namespace Text

-- ================================================== beginnings and ends

/-- What follows `p` in a text that begins with `p`. -/
def afterStart? : Text → Text → Option Text
  | [], t => some t
  | _ :: _, [] => none
  | p :: ps, c :: t => if p = c then afterStart? ps t else none

/-- The text without `c` at its end, if it ends so. -/
def beforeLast? (c : Char) (t : Text) : Option Text :=
  if t.getLast? = some c then some (List.dropLast t) else none

/-- The text without one `c` at its end, if there is one. -/
def dropLast (c : Char) (t : Text) : Text :=
  (beforeLast? c t).getD t

/-- Does `p` occur anywhere in the text? -/
def hasPart (p : Text) : Text → Bool
  | [] => p.isEmpty
  | c :: t => p.isPrefixOf (c :: t) || hasPart p t

-- ================================================== splitting

/-- A character in front of the first of some parts. -/
def addInFront (c : Char) : List Text → List Text
  | [] => [[c]]
  | part :: parts => (c :: part) :: parts

/-- The character comes first of all. -/
theorem flatten_addInFront (c : Char) (parts : List Text) :
    (addInFront c parts).flatten = c :: parts.flatten := by
  cases parts <;> simp [addInFront]

/-- The parts between the separators; there is always at least one. -/
def splitOn (sep : Char) (t : Text) : List Text :=
  t.foldr
    (fun c parts => if c = sep then [] :: parts else addInFront c parts) [[]]

/-- There is at least one part. -/
theorem splitOn_ne_nil (sep : Char) (t : Text) : splitOn sep t ≠ [] := by
  cases t with
  | nil => simp [splitOn]
  | cons c t =>
    rw [splitOn, List.foldr_cons]
    split
    · simp
    · cases List.foldr _ _ t <;> simp [addInFront]

/-- What stands before and after the first `sep`. -/
def cutAtFirst? (sep : Char) (t : Text) : Option (Text × Text) :=
  match t.dropWhile (· != sep) with
  | [] => none
  | _ :: after => some (t.takeWhile (· != sep), after)

/-- What stands before and after the last `sep`. -/
def cutAtLast? (sep : Char) (t : Text) : Option (Text × Text) :=
  (cutAtFirst? sep t.reverse).map fun (after, before) =>
    (before.reverse, after.reverse)

-- ================================================== lines

/-- The lines of a text, each with its line feed; the last may lack one. -/
def pieces (t : Text) : List Text :=
  t.foldr
    (fun c rest => if c = '\n' then [c] :: rest else addInFront c rest) []

/-- The pieces of a text make up the text. -/
theorem flatten_pieces (t : Text) : (pieces t).flatten = t := by
  induction t with
  | nil => rfl
  | cons c t ih =>
    rw [pieces, List.foldr_cons, ← pieces]
    by_cases h : c = '\n'
    · simp [h, ih]
    · rw [if_neg h, flatten_addInFront, ih]

/-- A piece without its terminator, a line feed or the two characters
carriage return and line feed. A carriage return that no line feed
follows is content. -/
def unterminated (piece : Text) : Text :=
  match beforeLast? '\n' piece with
  | none => piece
  | some content => dropLast '\r' content

/-- The lines of a text without their terminators. -/
def lines (t : Text) : List Text :=
  (pieces t).map unterminated

/-- The text with a line feed at its end, unless it is empty or has one. -/
def closed (t : Text) : Text :=
  if t.isEmpty || t.getLast? == some '\n' then t else t ++ ['\n']

/-- Each line followed by a line feed. -/
def unlines (ls : List Text) : Text :=
  ls.flatMap fun l => l ++ ['\n']

/-- The parts with `sep` between them. -/
def joinWith (sep : Text) : List Text → Text
  | [] => []
  | [part] => part
  | part :: parts => part ++ sep ++ joinWith sep parts

/-- The character comes first of all. -/
theorem joinWith_addInFront (sep : Text) (c : Char) (parts : List Text) :
    joinWith sep (addInFront c parts) = c :: joinWith sep parts := by
  match parts with
  | [] => rfl
  | [_] => rfl
  | _ :: _ :: _ => simp [addInFront, joinWith]

/-- The parts of a text, with the separator between them, make up the
text. -/
theorem joinWith_splitOn (sep : Char) (t : Text) :
    joinWith [sep] (splitOn sep t) = t := by
  induction t with
  | nil => rfl
  | cons c t ih =>
    rw [splitOn, List.foldr_cons, ← splitOn]
    by_cases h : c = sep
    · rw [if_pos h]
      obtain ⟨part, parts, hparts⟩ :=
        List.exists_cons_of_ne_nil (splitOn_ne_nil sep t)
      rw [hparts] at ih ⊢
      simp [joinWith, ih, h]
    · rw [if_neg h, joinWith_addInFront, ih]

-- ================================================== replacing

/-- Replaces each occurrence of `p`, taken from the left without overlap;
`skip` characters belong to an occurrence already replaced. -/
def replaceFrom (p by_ : Text) : Nat → Text → Text
  | _, [] => []
  | skip + 1, _ :: t => replaceFrom p by_ skip t
  | 0, c :: t =>
    if p.isPrefixOf (c :: t) then by_ ++ replaceFrom p by_ (p.length - 1) t
    else c :: replaceFrom p by_ 0 t

/-- Replaces each occurrence of `p`, taken from the left without overlap.
The empty text occurs before every character and at the end. -/
def replaceAll (p by_ t : Text) : Text :=
  if p.isEmpty then by_ ++ t.flatMap (fun c => c :: by_)
  else replaceFrom p by_ 0 t

/-- Every `a` turned into `b`. -/
def swap (a b : Char) (t : Text) : Text :=
  t.map fun c => if c = a then b else c

-- ================================================== case

/-- The text with its ASCII letters in lower case. -/
def lower (t : Text) : Text := t.map Char.toLower

/-- The text with its ASCII letters in upper case. -/
def upper (t : Text) : Text := t.map Char.toUpper

end Text

end GridScript
