/-
Blanks: the characters of the Unicode property White_Space. A text is
trimmed of them at either end, and a line that holds nothing else counts
as blank. Indentation is another matter and knows only the space and the
tab (`Script.indentWidth`).
-/
import GridScript.Text.Basic

namespace GridScript.Text

/-- The ranges of the property, in order: 25 characters. -/
def blankRanges : List (Nat × Nat) :=
  [(0x9, 0xD), (0x20, 0x20), (0x85, 0x85), (0xA0, 0xA0), (0x1680, 0x1680),
   (0x2000, 0x200A), (0x2028, 0x2029), (0x202F, 0x202F), (0x205F, 0x205F),
   (0x3000, 0x3000)]

/-- Is the character white space? -/
def isBlank (c : Char) : Bool :=
  blankRanges.any fun (first, last) => first ≤ c.toNat && c.toNat ≤ last

/-- Does the text hold nothing but blanks? -/
def allBlank (t : Text) : Bool := t.all isBlank

/-- The text without the blanks at its beginning. -/
def trimStart (t : Text) : Text := t.dropWhile isBlank

/-- The text without the blanks at its end. -/
def trimEnd (t : Text) : Text :=
  t.foldr
    (fun c rest => if rest.isEmpty && isBlank c then [] else c :: rest) []

/-- The text without the blanks at either end. -/
def trim (t : Text) : Text := trimEnd (trimStart t)

end GridScript.Text
