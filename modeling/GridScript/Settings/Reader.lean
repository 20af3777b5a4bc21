/-
Reading a settings file. All settings belong to one table, `runner`. It may
be written under its header, as one value, or by keys with its name in
front, but only in one of these ways. Written as one value it may also be a
list of the settings in the order of their declaration. A file that holds
anything else is refused as a whole.

Values are given as JSON, from which settings are read. A value that no
setting can have is as good as unreadable, whatever it is.
-/
import GridScript.Run.Config
import GridScript.Settings.Lexeme
import GridScript.Settings.Scalar

namespace GridScript.Settings

/-- A setting: its key, and its value. -/
abbrev Entry := List Text × Json

-- ======================================================== tables

/-- Does no key begin with another one? Only then each has a place of its
own in a table. -/
def areApart : List Entry → Bool
  | [] => true
  | (key, _) :: entries =>
    entries.all
      (fun (other, _) => !key.isPrefixOf other && !other.isPrefixOf key) &&
      areApart entries

/-- The member of an object that a setting is. A key with several parts
names no setting. -/
def member? : Entry → Option (Text × Json)
  | ([name], value) => some (name, value)
  | _ => none

/-- The table of settings. -/
def table (entries : List Entry) : Json :=
  match entries.mapM member? with
  | some members => .object members
  | none => .unreadable

-- ======================================================== values

/-- What a word says, as JSON. -/
def Scalar.toJson : Scalar → Json
  | integer n => .number (Number.integer n)
  | other => .unreadable

/-- The value that is one word, and the text after it. -/
def scalar? (t : Text) : Option (Json × Text) :=
  let word := firstWord t
  (Scalar.ofWord? word).map fun scalar => (scalar.toJson, t.drop word.length)

/-- The text after the equals sign of a setting. -/
def afterEquals? : Text → Option Text
  | '=' :: t => some (skipSpace t)
  | _ => none

mutual

/-- A value, and the text after it. As many brackets as there is `room` for
may still be opened; the budget bounds the number of values. -/
def value? : Nat → Nat → Text → Option (Json × Text)
  | 0, _, _ => none
  | budget + 1, room, t =>
    match t, room with
    | '[' :: t, room + 1 => do
      let (items, rest) ← items? budget room t
      return (.array items, rest)
    | '{' :: t, room + 1 => do
      let (entries, rest) ← entries? budget room true t
      if areApart entries then return (table entries, rest) else none
    | '"' :: _, _ =>
        (string? t).map fun (content, rest) => (.text content, rest)
    | '\'' :: _, _ =>
        (string? t).map fun (content, rest) => (.text content, rest)
    | _, _ => scalar? t

/-- The items of a list after its opening bracket. A comma may follow the
last. -/
def items? : Nat → Nat → Text → Option (List Json × Text)
  | 0, _, _ => none
  | budget + 1, room, t =>
    match skipFiller false t with
    | ']' :: rest => some ([], rest)
    | t => do
      let (item, rest) ← value? budget room t
      match skipFiller false rest with
      | ',' :: rest => do
        let (items, rest) ← items? budget room rest
        return (item :: items, rest)
      | ']' :: rest => return ([item], rest)
      | _ => none

/-- The settings of a table written as one value, after its opening brace
or a comma. Only the `first` may be missing. -/
def entries? : Nat → Nat → Bool → Text → Option (List Entry × Text)
  | 0, _, _, _ => none
  | budget + 1, room, first, t =>
    match first, skipSpace t with
    | true, '}' :: rest => some ([], rest)
    | _, t => do
      let (key, rest) ← key? t
      let (value, rest) ← value? budget room (← afterEquals? rest)
      match skipSpace rest with
      | ',' :: rest => do
        let (entries, rest) ← entries? budget room false rest
        return ((key, value) :: entries, rest)
      | '}' :: rest => return ([(key, value)], rest)
      | _ => none

end

/-- A setting, and the text after it. -/
def entry? (budget : Nat) (t : Text) : Option (Entry × Text) := do
  let (key, rest) ← key? t
  let (value, rest) ← value? budget depthLimit (← afterEquals? rest)
  return ((key, value), rest)

-- ======================================================== the file

/-- What has been read so far, the latest setting first. -/
inductive Draft where
  /-- Nothing. -/
  | nothing
  /-- Settings by keys with the table's name in front. -/
  | named (entries : List Entry)
  /-- The table as one value; nothing more may follow. -/
  | whole (value : Json)
  /-- Settings under the table's header. -/
  | headed (entries : List Entry)

/-- The name of the table. -/
def tableName : Text := "runner".toList

/-- The draft after one more setting. -/
def Draft.add? : Entry → Draft → Option Draft
  | entry, headed entries => some (headed (entry :: entries))
  | (name :: key, value), nothing =>
    if name ≠ tableName then none
    else if key.isEmpty then some (whole value)
    else some (named [(key, value)])
  | (name :: key, value), named entries =>
    if name ≠ tableName then none else some (named ((key, value) :: entries))
  | _, _ => none

/-- A header, after its opening bracket. -/
def header? (t : Text) : Option Text := do
  let (key, rest) ← key? (skipSpace t)
  match rest with
  | ']' :: rest => if key = [tableName] then lineEnd? rest else none
  | _ => none

/-- The draft after the next line with something on it, and the text after
that line. -/
def readLine? (budget : Nat) (draft : Draft) (t : Text) :
    Option (Draft × Text) :=
  match draft, t with
  | .nothing, '[' :: t => (header? t).map (.headed [], ·)
  | draft, t => do
    let (entry, rest) ← entry? budget t
    return (← draft.add? entry, ← lineEnd? rest)

/-- What a text holds, read after a draft. The budget bounds the number of
lines and of values. -/
def readLines? : Nat → Draft → Text → Option Draft
  | 0, _, _ => none
  | budget + 1, draft, t =>
    match skipFiller false t with
    | [] => some draft
    | t => do
      let (draft, rest) ← readLine? budget draft t
      readLines? budget draft rest

/-- The settings that a table says, or a list of them. What the list holds
behind the last setting is passed over. -/
def config? : Json → Option RunConfig
  | .array items =>
      RunConfig.ofJson? (.array (items.take RunConfig.settingNames.length))
  | j => RunConfig.ofJson? j

/-- The settings that a draft holds; none that are given is as good as the
standard ones. -/
def Draft.config? : Draft → Option RunConfig
  | nothing => some .standard
  | named entries => Settings.config? (table entries.reverse)
  | whole value => Settings.config? value
  | headed entries => Settings.config? (table entries.reverse)

/-- The settings of a file. -/
def read? (t : Text) : Option RunConfig := do
  let t := match t with
    | '\uFEFF' :: t => t
    | t => t
  (← readLines? (2 * t.length + 2) .nothing t).config?

end GridScript.Settings
