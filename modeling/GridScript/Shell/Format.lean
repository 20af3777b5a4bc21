/-
What `echo` and `printf` print. Both know escapes, and one of these may
stand for a byte that is no text; so what they print is bytes. There are two
kinds of both: the shell's own and programs, which know more escapes.
-/
import GridScript.Shell.Numeral
import GridScript.Shell.Quotation
import GridScript.Shell.Stream

namespace GridScript.Shell

-- ======================================================== escapes

/-- Which escapes are known. -/
inductive EscapeStyle where
  /-- In a format of the shell's own printing. -/
  | format
  /-- In an argument that the shell prints. -/
  | argument
  /-- In a format of the program that prints. -/
  | programFormat
  /-- In an argument that a program prints. -/
  | programArgument
  deriving DecidableEq

/-- What an escape says. -/
inductive Escape where
  | bytes (bs : List UInt8)
  /-- Nothing more is printed. -/
  | stop
  /-- The backslash stands for itself. -/
  | plain
  deriving DecidableEq

/-- Is the character an octal digit? -/
def isOctal (c : Char) : Bool := decide ('0' ≤ c) && decide (c ≤ '7')

/-- Is the character a hexadecimal digit? -/
def isHexadecimal (c : Char) : Bool := (Number.hexValue? c).isSome

/-- The byte of the octal digits that come next, at most so many, and what
follows them. -/
def octalByte (most : Nat) (t : Text) : Escape × Text :=
  let digits := (t.takeWhile isOctal).take most
  (.bytes
    [UInt8.ofNat (digits.foldl (fun n c => 8 * n + Number.digitValue c) 0)],
      t.drop digits.length)

/-- The number of the hexadecimal digits that come next, at most so many,
and what follows them; none if there are no digits. -/
def hexadecimal? (most : Nat) (t : Text) : Option (Nat × Text) :=
  let digits := (t.takeWhile isHexadecimal).take most
  if digits.isEmpty then none
  else
    some (digits.foldl (fun n c => 16 * n + (Number.hexValue? c).getD 0) 0,
      t.drop digits.length)

namespace EscapeStyle

/-- Do the escapes of programs count? -/
def isProgram : EscapeStyle → Bool
  | programFormat => true
  | programArgument => true
  | _ => false

/-- Is a zero in front of octal digits none of them? -/
def hasLeadingZero : EscapeStyle → Bool
  | argument => true
  | programArgument => true
  | _ => false

end EscapeStyle

/-- The escape after a backslash, and what follows it. -/
def readEscape (style : EscapeStyle) : Text → Escape × Text
  | [] => (.plain, [])
  | c :: t =>
    match c with
    | 'a' => (.bytes [7], t)
    | 'b' => (.bytes [8], t)
    | 'e' => (.bytes [27], t)
    | 'f' => (.bytes [12], t)
    | 'n' => (.bytes [10], t)
    | 'r' => (.bytes [13], t)
    | 't' => (.bytes [9], t)
    | 'v' => (.bytes [11], t)
    | '\\' => (.bytes [92], t)
    | '"' =>
        if style = .programFormat then (.bytes [34], t) else (.plain, c :: t)
    | 'c' => if style = .format then (.plain, c :: t) else (.stop, t)
    | '0' =>
        if style.hasLeadingZero then octalByte 3 t else octalByte 3 (c :: t)
    | 'x' =>
      match style.isProgram, hexadecimal? 2 t with
      | true, some (n, rest) => (.bytes [UInt8.ofNat n], rest)
      | _, _ => (.plain, c :: t)
    | 'u' =>
      match style == .programFormat, hexadecimal? 4 t with
      | true, some (n, rest) =>
          (.bytes (Stream.encode [Char.ofNat n]).toList, rest)
      | _, _ => (.plain, c :: t)
    | _ => if isOctal c then octalByte 3 (c :: t) else (.plain, c :: t)

/-- The bytes of a text with escapes, and whether one of them stops. The
budget bounds the length. -/
def expandEscapes (style : EscapeStyle) : Nat → Text → ByteArray × Bool
  | 0, _ => (.empty, false)
  | _, [] => (.empty, false)
  | budget + 1, c :: t =>
    if c = '\\' then
      match readEscape style t with
      | (.stop, _) => (.empty, true)
      | (.bytes bs, rest) =>
        let (out, stopped) := expandEscapes style budget rest
        (bs.foldl ByteArray.push .empty ++ out, stopped)
      | (.plain, rest) =>
        let (out, stopped) := expandEscapes style budget rest
        (ByteArray.empty.push 92 ++ out, stopped)
    else
      let (out, stopped) := expandEscapes style budget t
      (Stream.encode [c] ++ out, stopped)

-- ======================================================== echo

/-- Words with blanks between them, and with escapes if they count. -/
def spoken (escapes : Option EscapeStyle) (newline : Bool)
    (words : List Text) : ByteArray :=
  let t := Text.joinWith [' '] words
  let (out, stopped) := match escapes with
    | some style => expandEscapes style (t.length + 1) t
    | none => (Stream.encode t, false)
  if newline && !stopped then out.push 10 else out

/-- What the shell's `echo` prints of its arguments. -/
def echoBytes : List Text → ByteArray
  | ['-', 'n'] :: words => spoken (some .argument) false words
  | words => spoken (some .argument) true words

/-- What the program `echo` prints, where letters of options count until
there is another word. -/
def programEchoBytes (escapes newline : Bool) : List Text → ByteArray
  | ('-' :: letter :: letters) :: words =>
    let given := letter :: letters
    if given.all fun c => c == 'n' || c == 'e' || c == 'E' then
      let last := given.reverse.find? (· != 'n')
      programEchoBytes ((last.map (· == 'e')).getD escapes)
        (newline && !given.contains 'n') words
    else
      spoken (if escapes then some .programArgument else none) newline
        (('-' :: letter :: letters) :: words)
  | words =>
      spoken (if escapes then some .programArgument else none) newline words

-- ======================================================== conversions

/-- A conversion of a format. -/
structure Conversion where
  flags : Text
  width : Nat
  precision : Option Nat
  kind : Char

/-- What is wrong with a format or an argument. -/
inductive FormatFault where
  | noNumber (argument : Text)
  | partNumber (argument : Text)
  | outOfRange (argument : Text)
  | badDirective (directive : Text)
  | missingKind
  deriving DecidableEq

/-- The wording of the shell. -/
def FormatFault.message : FormatFault → Text
  | noNumber t => t ++ ": expected numeric value".toList
  | partNumber t => t ++ ": not completely converted".toList
  | outOfRange t => t ++ ": Numerical result out of range".toList
  | badDirective t => t ++ ": invalid directive".toList
  | missingKind => "missing format character".toList

/-- The wording of the program. -/
def FormatFault.programMessage : FormatFault → Text
  | noNumber t => quotedWord t ++ ": expected a numeric value".toList
  | partNumber t => quotedWord t ++ ": value not completely converted".toList
  | outOfRange t => quotedWord t ++ ": Numerical result out of range".toList
  | badDirective t => t ++ ": invalid conversion specification".toList
  | missingKind => "%: invalid conversion specification".toList

/-- The bytes with blanks or zeros to a width. Zeros stand between a sign
and digits. -/
def pad (c : Conversion) (zeros : Bool) (bytes : List UInt8) : List UInt8 :=
  let missing := c.width - bytes.length
  if c.flags.contains '-' then bytes ++ List.replicate missing 32
  else if zeros && c.flags.contains '0' then
    let isSign (b : UInt8) : Bool := b == 45 || b == 43 || b == 32
    let sign := bytes.takeWhile isSign
    sign ++ List.replicate missing 48 ++ bytes.drop sign.length
  else List.replicate missing 32 ++ bytes

/-- The sign of a number, as the flags ask for it. -/
def signOf (c : Conversion) (negative : Bool) : Text :=
  if negative then ['-'] else if c.flags.contains '+' then ['+']
  else if c.flags.contains ' ' then [' '] else []

/-- A number as it stands for an unsigned one of 64 bits. -/
def unsignedWord (n : Int) : Nat := (n % (Number.wordBound : Int)).toNat

/-- An integer that a conversion prints. -/
def printedInteger (c : Conversion) (n : Int) : List UInt8 :=
  let withZeros (t : Text) : Text :=
    List.replicate (c.precision.getD 0 - t.length) '0' ++ t
  let inBase (base : Nat) : Text := Nat.toDigits base (unsignedWord n)
  let hash := c.flags.contains '#' && n != 0
  let t := match c.kind with
    | 'u' => withZeros (inBase 10)
    | 'x' => (if hash then "0x".toList else []) ++ withZeros (inBase 16)
    | 'X' =>
        (if hash then "0X".toList else [])
          ++ withZeros (Text.upper (inBase 16))
    | 'o' => (if hash then "0".toList else []) ++ withZeros (inBase 8)
    | _ => signOf c (n < 0) ++ withZeros (Number.decimal n.natAbs)
  pad c c.precision.isNone (Text.toBytes t)

/-- A fraction that a conversion prints. -/
def printedFraction (c : Conversion) (x : Double) : List UInt8 :=
  let places := c.precision.getD 6
  let isUpper := c.kind.isUpper
  let cased (t : Text) : Text := if isUpper then Text.upper t else t
  match x with
  | .nan => pad c false (Text.toBytes (cased (signOf c false ++ "nan".toList)))
  | .infinite s =>
      pad c false (Text.toBytes (cased (signOf c s ++ "inf".toList)))
  | .finite s rank =>
    let (num, den) := (Double.magnitude rank).ratio
    let t := match c.kind.toLower with
      | 'e' => exponentForm places num den
      | 'g' => generalForm (c.flags.contains '#') places num den
      | _ => fixedPoint places num den
    pad c true (Text.toBytes (cased (signOf c s ++ t)))

/-- The integer of an argument, and what is wrong with it. A quote in front
of a character stands for its code. -/
def argumentInteger (kind : Char) (argument : Text) :
    Int × Option FormatFault :=
  match argument with
  | '"' :: c :: _ => (((Text.toBytes [c]).head?.map (·.toNat)).getD 0, none)
  | '\'' :: c :: _ => (((Text.toBytes [c]).head?.map (·.toNat)).getD 0, none)
  | [] => (0, none)
  | argument =>
    let r := integerAtStart argument
    let isSigned := kind == 'd' || kind == 'i'
    let fits := if isSigned then clamped r.value == r.value
      else decide (r.value.natAbs < Number.wordBound)
    let value :=
      if fits then r.value else if isSigned then clamped r.value else -1
    if !r.found then (0, some (.noNumber argument))
    else if !r.rest.isEmpty then (value, some (.partNumber argument))
    else if !fits then (value, some (.outOfRange argument))
    else (value, none)

/-- The fraction of an argument, and what is wrong with it. -/
def argumentFraction (argument : Text) : Double × Option FormatFault :=
  if argument.isEmpty then (.zero, none)
  else
    let r := fractionAtStart argument
    if !r.found then (.zero, some (.noNumber argument))
    else if !r.rest.isEmpty then (r.value, some (.partNumber argument))
    else (r.value, none)

-- ======================================================== printf

/-- What has been printed, the arguments left, whether any were looked for,
what went wrong, and whether printing goes on. -/
structure Printed where
  out : ByteArray
  arguments : List Text
  asked : Bool
  faults : List FormatFault
  stopped : Bool
  /-- What made going on impossible. -/
  failure : Option FormatFault

namespace Printed

/-- Adds bytes. -/
def add (p : Printed) (bytes : List UInt8) : Printed :=
  { p with out := bytes.foldl ByteArray.push p.out }

/-- The next argument, and the rest. -/
def next (p : Printed) : Option Text × Printed :=
  (p.arguments.head?, { p with
      arguments := p.arguments.drop 1, asked := true })

/-- Notes what is wrong with an argument. -/
def note (p : Printed) (fault : Option FormatFault) : Printed :=
  { p with faults := p.faults ++ fault.toList }

/-- Prints the next argument by a conversion. -/
def convert (style : EscapeStyle) (c : Conversion) (p : Printed) : Printed :=
  let (argument, p) := p.next
  let argument := argument.getD []
  let bytes := Text.toBytes argument
  if "dixXou".toList.contains c.kind then
    let (n, fault) := argumentInteger c.kind argument
    (p.add (printedInteger c n)).note fault
  else if "eEfFgGaA".toList.contains c.kind then
    let (x, fault) := argumentFraction argument
    (p.add (printedFraction c x)).note fault
  else if c.kind = 'c' then
    p.add (pad c false (if bytes.isEmpty then [0] else bytes.take 1))
  else if c.kind = 'b' then
    let inner :=
      if style = .programFormat then EscapeStyle.programArgument else .argument
    let (out, stopped) := expandEscapes inner (argument.length + 1) argument
    let kept := out.toList.take (c.precision.getD out.size)
    { p.add (pad c false kept) with stopped := stopped }
  else p.add (pad c false (bytes.take (c.precision.getD bytes.length)))

/-- A width or a precision: its digits, or the next argument for a star;
what follows, and whether it asks for the other side. -/
def measure (t : Text) (p : Printed) : Nat × Bool × Text × Printed :=
  match t with
  | '*' :: t =>
    let (argument, p) := p.next
    let (n, fault) := argumentInteger 'd' (argument.getD [])
    (n.natAbs, decide (n < 0), t, p.note fault)
  | t =>
      (Number.ofDigits 0 (t.takeWhile Char.isDigit), false,
        t.dropWhile Char.isDigit, p)

/-- Prints by the conversion after a percent sign; the text after it is
left. -/
def directive (style : EscapeStyle) (t : Text) (p : Printed) :
    Text × Printed :=
  let isFlag (c : Char) : Bool := "-+ #0".toList.contains c
  let flags := t.takeWhile isFlag
  let (width, leftwards, rest, p) := measure (t.dropWhile isFlag) p
  let flags := if leftwards then '-' :: flags else flags
  let (precision, rest, p) := match rest with
    | '.' :: rest =>
      let (n, negative, rest, p) := measure rest p
      (if negative then none else some n, rest, p)
    | rest => (none, rest, p)
  match rest with
  | c :: after =>
    if "sbcdiuxXoeEfFgGaA".toList.contains c then
      (after, p.convert style ⟨flags, width, precision, c⟩)
    else
      let written := '%' :: t.take (t.length - after.length)
      (after, { p with
          stopped := true, failure := some (.badDirective written) })
  | [] => ([], { p with stopped := true, failure := some .missingKind })

/-- Prints a format once. The budget bounds its length. -/
def once (style : EscapeStyle) : Nat → Text → Printed → Printed
  | 0, _, p => p
  | _, [], p => p
  | budget + 1, c :: t, p =>
    if p.stopped then p
    else if c = '\\' then
      match readEscape style t with
      | (.bytes bs, rest) => once style budget rest (p.add bs)
      | (.stop, _) => { p with stopped := true }
      | (.plain, rest) => once style budget rest (p.add [92])
    else if c = '%' then
      match t with
      | '%' :: rest => once style budget rest (p.add [37])
      | t =>
        let (rest, p) := directive style t p
        once style budget rest p
    else once style budget t (p.add (Stream.encode [c]).toList)

/-- Prints a format until the arguments are used up. The budget bounds the
number of times. -/
def again (style : EscapeStyle) (format : Text) : Nat → Printed → Printed
  | 0, p => p
  | budget + 1, p =>
    let q := once style (format.length + 1) format p
    if q.stopped || q.arguments.isEmpty
        || q.arguments.length == p.arguments.length then q
    else again style format budget q

/-- What a format makes of arguments. -/
def ofFormat (style : EscapeStyle) (format : Text) (arguments : List Text) :
    Printed :=
  again style format (arguments.length + 1)
    ⟨.empty, arguments, false, [], false, none⟩

end Printed

end GridScript.Shell
