/-
Column letters: A to Z, then AA to ZZ, and so on. They are the numerals
of base 26 without a zero, of the column's index plus one; that is why
every column has exactly one spelling. Indices are unbounded here, but a
spelling is read only if the numeral fits a word, and refused rather than
wrapped otherwise: the last index that can be read is 2^64 - 2.
-/
import GridScript.Number.Natural

namespace GridScript.Column

/-- The letter of a digit value below 26, in upper case. -/
def letter (digit : Nat) : Char := Char.ofNat ('A'.toNat + digit)

/-- The numeral of a positive number, most significant letter first; the
empty text for zero. -/
def numeral (n : Nat) : Text :=
  if n = 0 then [] else numeral ((n - 1) / 26) ++ [letter ((n - 1) % 26)]
termination_by n
decreasing_by omega

/-- The letters of a column. -/
def letters (col : Nat) : Text := numeral (col + 1)

/-- The value of a letter of either case, from 1 to 26. -/
def letterValue? (c : Char) : Option Nat :=
  if c.isAlpha then some (c.toUpper.toNat - 'A'.toNat + 1) else none

/-- One step of reading a numeral: no value may leave the word. -/
def readLetter? (n : Nat) (c : Char) : Option Nat := do
  let digit ← letterValue? c
  let shifted ← Number.asWord? (n * 26)
  Number.asWord? (shifted + digit)

/-- The column that letters of either case spell. -/
def ofLetters? (t : Text) : Option Nat := do
  let n ← t.foldlM readLetter? 0
  if n = 0 then none else return n - 1

/-- The name of a cell without its region, as a script spells it: `c0`. -/
def cellName (row col : Nat) : Text :=
  Text.lower (letters col) ++ Number.decimal row

end GridScript.Column
