/-
Words: the longest runs of letters, digits and underscores that begin with
none of the digits, all of them ASCII. Formulas and scripts share this
notion of a name.
-/
import GridScript.Text.Basic

namespace GridScript.Text

/-- Can a word begin with the character? -/
def isWordStart (c : Char) : Bool := c.isAlpha || c == '_'

/-- Can a word go on with the character? -/
def isWordChar (c : Char) : Bool := c.isAlphanum || c == '_'

/-- The characters of the word that a text begins with. -/
def word (t : Text) : Text := t.takeWhile isWordChar

/-- What follows the word that a text begins with. -/
def afterWord (t : Text) : Text := t.dropWhile isWordChar

/-- Dropping a run leaves no more than there was. -/
theorem length_dropWhile_le (p : Char → Bool) (t : Text) :
    (t.dropWhile p).length ≤ t.length :=
  (List.dropWhile_sublist p).length_le

end GridScript.Text
