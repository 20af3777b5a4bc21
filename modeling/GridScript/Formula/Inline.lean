/-
Formulas that are script expressions as they stand: cells, numbers, the
four operators and blanks, and nothing else. Such a formula is taken apart
into tokens, each as long as it can be, and put together again with its
cells in lower case. A table's name in front of a cell keeps its case.
-/
import GridScript.Grid.Address
import GridScript.Number.Reading
import GridScript.Text.Word

namespace GridScript.Formula

/-- A token of an inline formula. -/
inductive InlineToken where
  /-- A cell as it is written, of this table or a named one. -/
  | reference (table : Option Text) (cell : Text)
  | number (spelling : Text)
  | operator (c : Char)
  | blanks (t : Text)
  deriving DecidableEq

/-- Is the token something to compute with? -/
def InlineToken.isOperand : InlineToken → Bool
  | reference .. => true
  | number _ => true
  | _ => false

/-- Is this one of the four operators? -/
def isOperator (c : Char) : Bool :=
  c == '+' || c == '-' || c == '*' || c == '/'

/-- Can a number's run of characters go on with this one? -/
def isNumberChar (c : Char) : Bool := c.isDigit || c == '.'

/-- Does a word come next? -/
def startsWord : Text → Bool
  | c :: _ => Text.isWordStart c
  | [] => false

/-- Does a character of a word come next? -/
def continuesWord : Text → Bool
  | c :: _ => Text.isWordChar c
  | [] => false

/-- The cell that follows a word, a point and the beginning of a second
word: the word before the point is then a table. -/
def qualified? : Text → Option Text
  | '.' :: t => if startsWord t then some t else none
  | _ => none

/-- What follows the point is shorter. -/
theorem length_qualified? {t rest : Text} (h : qualified? t = some rest) :
    rest.length < t.length := by
  unfold qualified? at h
  split at h
  next t => split at h <;> simp_all
  next => simp at h

/-- The tokens of a text; none if it holds anything else. -/
def readTokens? : Text → Option (List InlineToken)
  | [] => some []
  | c :: t =>
    if Text.isBlank c then
      (readTokens? (t.dropWhile Text.isBlank)).map
        (.blanks (c :: t.takeWhile Text.isBlank) :: ·)
    else if isOperator c then (readTokens? t).map (.operator c :: ·)
    else if isNumberChar c then
      let spelling := c :: t.takeWhile isNumberChar
      let rest := t.dropWhile isNumberChar
      if !Number.isNumeral spelling || continuesWord rest then none
      else (readTokens? rest).map (.number spelling :: ·)
    else if Text.isWordStart c then
      let name := c :: Text.word t
      match _qualified : qualified? (Text.afterWord t) with
      | some rest =>
        let cell := Text.word rest
        if isCellName cell then
          (readTokens? (Text.afterWord rest)).map
            (.reference (some name) cell :: ·)
        else none
      | none =>
        if isCellName name then
          (readTokens? (Text.afterWord t)).map (.reference none name :: ·)
        else none
    else none
termination_by t => t.length
decreasing_by
  · have := Text.length_dropWhile_le Text.isBlank t; simp; omega
  · simp
  · have := Text.length_dropWhile_le isNumberChar t; simp; omega
  · have := length_qualified? _qualified
    have := Text.length_dropWhile_le Text.isWordChar t
    have := Text.length_dropWhile_le Text.isWordChar rest
    simp [Text.afterWord] at *; omega
  · have :=
      Text.length_dropWhile_le Text.isWordChar t; simp [Text.afterWord]; omega

/-- The tokens of an inline formula, which has at least one operand. -/
def inlineTokens? (expr : Text) : Option (List InlineToken) :=
  match readTokens? expr with
  | some tokens =>
      if tokens.any InlineToken.isOperand then some tokens else none
  | none => none

/-- A token as it was written. -/
def InlineToken.source : InlineToken → Text
  | reference (some table) cell => table ++ '.' :: cell
  | reference none cell => cell
  | number spelling => spelling
  | operator c => [c]
  | blanks t => t

/-- The token with its cell in lower case. -/
def InlineToken.lowered : InlineToken → InlineToken
  | reference table cell => reference table (Text.lower cell)
  | token => token

/-- The text of an inline formula in a script. -/
def renderInline (tokens : List InlineToken) : Text :=
  tokens.flatMap fun token => token.lowered.source

end GridScript.Formula
