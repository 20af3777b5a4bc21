/-
How messages show words and paths. A word stands between apostrophes, with a
backslash in front of what would be misread there. A path is written as it
could be typed: as it is if nothing in it means anything to a shell, and
otherwise between apostrophes or quotation marks. What cannot be printed is
escaped in both, byte by byte.
-/
import GridScript.Text.Utf8

namespace GridScript.Shell

-- ======================================================== bytes

/-- Can the byte be printed as it is? -/
def isPrintable (b : UInt8) : Bool := 32 ≤ b && b < 127

/-- The character of a byte. -/
def byteChar (b : UInt8) : Char := Char.ofNat b.toNat

/-- The escape of a byte that cannot be printed: a letter if there is one
for it, or its octal digits. -/
def byteEscape (b : UInt8) : Text :=
  '\\' :: match "abtnvfr".toList[b.toNat - 7]? with
    | some c => if b < 7 then octal else [c]
    | none => octal
where
  octal : Text := [b / 64, b / 8 % 8, b % 8].map fun d => byteChar (48 + d)

-- ======================================================== words

/-- A byte of a word between apostrophes. -/
def wordByte (b : UInt8) : Text :=
  if b = 39 || b = 92 then ['\\', byteChar b]
  else if isPrintable b then [byteChar b]
  else byteEscape b

/-- A word between apostrophes. -/
def quotedWord (t : Text) : Text :=
  '\'' :: (Text.toBytes t).flatMap wordByte ++ ['\'']

-- ======================================================== paths

/-- Does the character at a place of a path mean something to a shell? -/
def isShellMark (n : Nat) (c : Char) : Bool :=
  " !\"$&'()*;<=>?[\\^\x60|".toList.contains c
    || (n == 0 && (c == '#' || c == '~'))

/-- Would the character at a place be read otherwise between quotation
marks? -/
def isMarkInQuotes (n : Nat) (c : Char) : Bool :=
  "!\"#$&()*;<=>?[\\^\x60\x7b|\x7d~".toList.contains c
    && !(n == 0 && (c == '#' || c == '~'))

/-- The path between apostrophes, and whether escapes were read last, which
stand between apostrophes of their own. -/
def quotePathByte (written : Text × Bool) (b : UInt8) : Text × Bool :=
  let (out, inEscapes) := written
  if b = 39 then (out ++ "'\\''".toList, false)
  else if isPrintable b then
    (out ++ (if inEscapes then ['\'', '\''] else []) ++ [byteChar b], false)
  else (out ++ (if inEscapes then [] else "'$'".toList) ++ byteEscape b, true)

/-- A path between quotation marks or apostrophes. An apostrophe is best
shown between quotation marks, if nothing else in the path means anything
there. -/
def quotedPath (p : Text) : Text :=
  let bytes := Text.toBytes p
  if p.contains '\'' && bytes.all isPrintable &&
      !(p.zipIdx.any fun (c, n) => isMarkInQuotes n c) then '"' :: p ++ ['"']
  else '\'' :: (bytes.foldl quotePathByte ([], false)).1 ++ ['\'']

/-- A path as it is, if it needs no apostrophes. A colon counts as well,
since messages have one after the path. -/
def shownPath (p : Text) : Text :=
  let isPlain := (Text.toBytes p).all isPrintable && !p.contains ':' &&
    !(p.zipIdx.any fun (c, n) => isShellMark n c) &&
    !(["", "\x7b", "\x7d"].contains (String.ofList p))
  if isPlain then p else quotedPath p

end GridScript.Shell
