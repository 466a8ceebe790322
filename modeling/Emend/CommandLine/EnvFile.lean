import Emend.Text.Class

namespace Emend
namespace EnvFile

/-!
# Environment files

An environment file has a setting `NAME=value` on each line.  A value may be
quoted, wholly or in parts: between double quotes a backslash escapes, between
single quotes everything stands for itself.  A dollar sign outside single
quotes refers to another variable.  A number sign behind white space starts a
comment.

White space at the end of a line does not count.  A line that is not understood
ends the file: the settings before it count.
-/

/-! ## Lines -/

/-- Where in a value the reader of lines is. -/
inductive Place where
  | plain
  | blank
  | escape
  | single
  | singleEscape
  | double
  | doubleEscape
  deriving DecidableEq

/-- The place after a character; `none` at a comment. -/
def Place.after (place : Place) (c : Char) : Option Place :=
  let opening (other : Place) : Place :=
    if c = '\\' then .escape
    else if c = '"' then .double
    else if c = '\'' then .single
    else other
  match place with
  | .plain =>
      if Text.isSpace c && c != '\n' && c != '\r' then some .blank else some (opening .plain)
  | .blank => if c = '#' then none else some (opening .plain)
  | .escape => some .plain
  | .single => some (if c = '\\' then .singleEscape else if c = '\'' then .plain else .single)
  | .singleEscape => some .single
  | .double => some (if c = '\\' then .doubleEscape else if c = '"' then .plain else .double)
  | .doubleEscape => some .double

/-- The characters of a line up to a comment, and the place at its end, which
is `none` behind a comment. -/
def scanLine (place : Place) : List Char → List Char × Option Place
  | [] => ([], some place)
  | c :: rest =>
      match place.after c with
      | none => ([], none)
      | some next =>
          let (kept, final) := scanLine next rest
          (c :: kept, final)

/-- The text cut behind every line feed. -/
def physicalLines : List Char → List (List Char)
  | [] => []
  | c :: rest =>
      if c = '\n' then
        [c] :: physicalLines rest
      else
        match physicalLines rest with
        | [] => [[c]]
        | line :: lines => (c :: line) :: lines

/-- A line without the line feed at its end. -/
def withoutLineFeed (line : List Char) : List Char :=
  match line.reverse with
  | '\n' :: '\r' :: rest => rest.reverse
  | '\n' :: rest => rest.reverse
  | _ => line

/-- The lines of a file.  A quoted value may go on over several of them; `none`
stands for one that the file does not close. -/
def lines (begun : List Char) (place : Place) : List (List Char) → List (Option (List Char))
  | [] => if begun.isEmpty && place = .plain then [] else [none]
  | line :: rest =>
      if (Text.trimStart (begun ++ line)).head? = some '#' then
        lines [] .plain rest
      else
        match scanLine place line with
        | (kept, none) => some (begun ++ kept) :: lines [] .plain rest
        | (kept, some .plain) => some (withoutLineFeed (begun ++ kept)) :: lines [] .plain rest
        | (kept, some next) => lines (begun ++ kept) next rest

/-! ## Values -/

/-- A part of a value: characters, or the name of another variable. -/
inductive Part where
  | text (chars : List Char)
  | reference (name : String)

/-- The name of a setting, and what follows it. -/
def readName? (line : List Char) : Option (String × List Char) :=
  match line with
  | [] => none
  | first :: _ =>
      if first.isAlpha || first == '_' then
        let continues (c : Char) : Bool := c.isAlphanum || c == '_' || c == '.'
        some (String.ofList (line.takeWhile continues), line.dropWhile continues)
      else
        none

/-- What a reader of values is inside of. -/
inductive Mode where
  | plain
  | single
  | double
  deriving DecidableEq

/-- The name between braces, and what follows the closing one. -/
def bracedName? : List Char → Option (List Char × List Char)
  | [] => none
  | '\x7d' :: rest => some ([], rest)
  | c :: rest => (bracedName? rest).map fun (name, rest) => (c :: name, rest)

/-- Whether only blanks and possibly a comment are left of a value. -/
def isEnd : List Char → Bool
  | [] => true
  | c :: rest => if c = ' ' || c = '\t' then isEnd rest else c == '#'

/-- The parts of a value; `none` when it is not understood.  The bound must
exceed the length of the value. -/
def readParts? : Nat → Mode → List Char → Option (List Part)
  | 0, _, _ => none
  | _ + 1, mode, [] => if mode = .plain then some [] else none
  | bound + 1, .single, c :: rest =>
      if c = '\'' then readParts? bound .plain rest
      else (readParts? bound .single rest).map (.text [c] :: ·)
  | bound + 1, mode, c :: rest =>
      if c = '$' then
        match rest with
        | '\x7b' :: inner => do
            let (name, rest) ← bracedName? inner
            let parts ← readParts? bound mode rest
            some (.reference (String.ofList name) :: parts)
        | _ => do
            let name := rest.takeWhile Text.isAlphanumeric
            let parts ← afterReference bound mode (rest.dropWhile Text.isAlphanumeric)
            some (.reference (String.ofList name) :: parts)
      else if c = '\\' then
        match rest with
        | [] => if mode = .plain then some [] else none
        | letter :: rest =>
            if letter = '\\' || letter = '\'' || letter = '"' || letter = '$' || letter = ' ' then
              (readParts? bound mode rest).map (.text [letter] :: ·)
            else if letter = 'n' then
              (readParts? bound mode rest).map (.text ['\n'] :: ·)
            else
              none
      else if c = '"' then
        readParts? bound (if mode = .double then .plain else .double) rest
      else if mode = .double then
        (readParts? bound mode rest).map (.text [c] :: ·)
      else if c = '\'' then
        readParts? bound .single rest
      else if c = ' ' || c = '\t' then
        if isEnd rest then some [] else none
      else
        (readParts? bound mode rest).map (.text [c] :: ·)
where
  /-- The character that ends the name of a variable stands for itself, unless
  it begins another reference. -/
  afterReference (bound : Nat) (mode : Mode) (rest : List Char) : Option (List Part) :=
    match rest with
    | [] => if mode = .plain then some [] else none
    | c :: after =>
        if c = '$' then readParts? bound mode rest
        else (readParts? bound mode after).map (.text [c] :: ·)

/-! ## Settings -/

/-- A variable and the parts of its value. -/
structure Setting where
  name : String
  value : List Part

/-- What a line says: `none` when it is not understood, and inside it `none`
for a line that says nothing. -/
def readSetting? (line : List Char) : Option (Option Setting) :=
  let line := Text.trim line
  if line.isEmpty || line.head? = some '#' then
    some none
  else do
    let (name, rest) ← readName? line
    let rest := Text.trimStart rest
    let (name, rest) ←
      match rest with
      | '=' :: rest => some (name, rest)
      | _ =>
          if name = "export" then do
            let (name, rest) ← readName? rest
            match Text.trimStart rest with
            | '=' :: rest => some (name, rest)
            | _ => none
          else
            none
    let value := Text.trimStart rest
    if value.isEmpty || value.head? = some '#' then
      some (some ⟨name, []⟩)
    else do
      let parts ← readParts? (value.length + 1) .plain value
      some (some ⟨name, parts⟩)

/-- The settings of lines up to the first one that is not understood. -/
def settingsOf : List (Option (List Char)) → List Setting
  | [] => []
  | line :: rest =>
      match line.bind readSetting? with
      | none => []
      | some none => settingsOf rest
      | some (some setting) => setting :: settingsOf rest

/-- The settings of a file.  A byte order mark in front is skipped. -/
def settings (text : String) : List Setting :=
  let chars := text.toList
  let chars := if chars.head? = some '\ufeff' then chars.drop 1 else chars
  settingsOf (lines [] .plain (physicalLines chars))

/-! ## Environments -/

/-- The text of a value, with other variables looked up by `lookup`; a variable
that is not set stands for nothing. -/
def expand (lookup : String → Option String) (parts : List Part) : String :=
  String.join (parts.map fun part =>
    match part with
    | .text chars => String.ofList chars
    | .reference name => (lookup name).getD "")

/-- The value that a variable gives to a name.  An environment holds the entry
`NAME=value`, and what stands in it behind the name asked for and an equals sign
is the answer: a name that itself has an equals sign may reach into the value. -/
def valueFor? (name value asked : String) : Option String :=
  if asked.isEmpty then none
  else
    ((asked ++ "=").toList.isPrefixOf? (name ++ "=" ++ value).toList).map String.ofList

/-- An environment extended by settings.  Variables that are set already keep
their value.  The answer is `none` when another one would get a value with a
null character, which no variable can have. -/
def extend? (lookup : String → Option String) : List Setting → Option (String → Option String)
  | [] => some lookup
  | setting :: rest =>
      let value := expand lookup setting.value
      if (lookup setting.name).isSome then extend? lookup rest
      else if value.contains '\x00' then none
      else
        let next (asked : String) : Option String :=
          (lookup asked).orElse fun _ => valueFor? setting.name value asked
        extend? next rest

end EnvFile
end Emend
