/-
Patterns, as a choice and a cut of a parameter use them: `*` for any text,
`?` for any character, brackets for a set of characters, and everything
else, and whatever was quoted, for itself. A character is a byte here, so
that text is looked at by its bytes.
-/
import GridScript.Text.Utf8

namespace GridScript.Shell

/-- A member of a set of characters. -/
inductive SetMember where
  | range (first last : Char)
  | named (name : Text)
  deriving DecidableEq

/-- A part of a pattern. -/
inductive PatternPart where
  | char (c : Char)
  | anyChar
  | anyText
  | set (negated : Bool) (members : List SetMember)
  deriving DecidableEq

/-- A pattern. -/
abbrev Pattern := List PatternPart

/-- Does the character belong to a named class? -/
def inClass (name : Text) (c : Char) : Bool :=
  match String.ofList name with
  | "alpha" => c.isAlpha
  | "digit" => c.isDigit
  | "alnum" => c.isAlphanum
  | "upper" => c.isUpper
  | "lower" => c.isLower
  | "space" => " \t\n\x0b\x0c\r".toList.contains c
  | "blank" => c == ' ' || c == '\t'
  | "punct" => decide (0x21 ≤ c.toNat ∧ c.toNat ≤ 0x7E) && !c.isAlphanum
  | "graph" => decide (0x21 ≤ c.toNat ∧ c.toNat ≤ 0x7E)
  | "print" => decide (0x20 ≤ c.toNat ∧ c.toNat ≤ 0x7E)
  | "cntrl" => decide (c.toNat < 0x20 ∨ c.toNat = 0x7F)
  | "xdigit" => c.isDigit || "abcdefABCDEF".toList.contains c
  | _ => false

/-- Does the character belong to the member? -/
def SetMember.has (m : SetMember) (c : Char) : Bool :=
  match m with
  | range first last => decide (first ≤ c) && decide (c ≤ last)
  | named name => inClass name c

/-- Does a set have the character? -/
def setHas (negated : Bool) (members : List SetMember) (c : Char) : Bool :=
  members.any (·.has c) != negated

/-- The character of a set that comes next. In some languages a backslash
quotes the one after it. -/
def setCharacter? (escapes : Bool) : Text → Option (Char × Text)
  | '\\' :: c :: t => if escapes then some (c, t) else some ('\\', c :: t)
  | c :: t => some (c, t)
  | [] => none

/-- The members of a set up to its closing bracket, and what follows that.
A bracket that comes first is a member. The budget bounds their number. -/
def setMembers? (escapes : Bool) :
    Nat → Bool → Text → Option (List SetMember × Text)
  | 0, _, _ => none
  | budget + 1, first, t => do
    let goOn (m : SetMember) (rest : Text) : Option (List SetMember × Text) :=
      (setMembers? escapes budget false rest).map fun (ms, rest) =>
        (m :: ms, rest)
    match t with
    | ']' :: rest =>
        if first then goOn (.range ']' ']') rest else some ([], rest)
    | '[' :: ':' :: rest =>
      match rest.dropWhile Char.isAlpha with
      | ':' :: ']' :: after =>
          goOn (.named (rest.takeWhile Char.isAlpha)) after
      | _ => goOn (.range '[' '[') (':' :: rest)
    | t =>
      let (a, rest) ← setCharacter? escapes t
      match rest with
      | '-' :: more =>
        if more.head? = some ']' then goOn (.range a a) rest
        else
          let (b, after) ← setCharacter? escapes more
          goOn (.range a b) after
      | rest => goOn (.range a a) rest

/-- A set after its opening bracket. What negates it is an exclamation mark
in the languages where a backslash quotes, and a circumflex in the others. -/
def readSet? (escapes : Bool) (t : Text) : Option (PatternPart × Text) :=
  let negated := t.head? = some (if escapes then '!' else '^')
  let t := if negated then t.drop 1 else t
  (setMembers? escapes (t.length + 1) true t).map fun (ms, rest) =>
    (.set negated ms, rest)

-- ======================================================== patterns

/-- The bytes of a text, each as the character of its number. -/
def bytewise (t : Text) : Text :=
  (Text.toBytes t).map fun b => Char.ofNat b.toNat

/-- The text that has such bytes. -/
def ofBytewise (t : Text) : Text :=
  Text.ofBytes (t.map fun c => UInt8.ofNat c.toNat)

/-- The parts of a pattern, in which a backslash quotes what follows it. The
budget bounds their number. -/
def Pattern.readParts : Nat → Text → Pattern
  | 0, _ => []
  | _, [] => []
  | budget + 1, c :: t =>
    match c, t with
    | '*', t => .anyText :: readParts budget t
    | '?', t => .anyChar :: readParts budget t
    | '[', t =>
      match readSet? true t with
      | some (part, rest) => part :: readParts budget rest
      | none => .char c :: readParts budget t
    | '\\', e :: rest => .char e :: readParts budget rest
    | c, t => .char c :: readParts budget t

/-- The pattern of a text. -/
def Pattern.read (t : Text) : Pattern := Pattern.readParts (t.length + 1) t

/-- The text that a pattern stands for, if it stands for just one. -/
def Pattern.literal? (p : Pattern) : Option Text :=
  let char? : PatternPart → Option Char
    | .char c => some c
    | _ => none
  (p.mapM char?).map ofBytewise

/-- Does the pattern match all of some bytes? -/
def Pattern.fitsBytes : Pattern → Text → Bool
  | [], t => t.isEmpty
  | .anyText :: p, [] => Pattern.fitsBytes p []
  | .anyText :: p, c :: t =>
      Pattern.fitsBytes p (c :: t) || Pattern.fitsBytes (.anyText :: p) t
  | _ :: _, [] => false
  | .char d :: p, c :: t => c == d && Pattern.fitsBytes p t
  | .anyChar :: p, _ :: t => Pattern.fitsBytes p t
  | .set negated members :: p, c :: t =>
      setHas negated members c && Pattern.fitsBytes p t
termination_by p t => p.length + t.length

/-- Does the pattern match all of the text? -/
def Pattern.fits (p : Pattern) (t : Text) : Bool := p.fitsBytes (bytewise t)

/-- A text without what a pattern matches at one of its ends: the longest
part of it or the shortest. -/
def Pattern.cut (p : Pattern) (atEnd longest : Bool) (t : Text) : Text :=
  let bytes := bytewise t
  let matching := (List.range (bytes.length + 1)).filter fun n =>
    p.fitsBytes (if atEnd then bytes.drop (bytes.length - n) else bytes.take n)
  match if longest then matching.getLast? else matching.head? with
  | none => t
  | some n =>
      ofBytewise
        (if atEnd then bytes.take (bytes.length - n) else bytes.drop n)

end GridScript.Shell
