import Emend.Datum
import Emend.Number.Numeral

namespace Emend
namespace Datum

/-!
# JSON text

The reader accepts exactly the texts of the interchange format: white space is
blank, tab, line feed and carriage return; strings hold no raw control
characters; nothing follows the value.

Three things are spelled correctly and still have no value: a number too large
for binary64, a string with half of a surrogate pair, and whatever is nested
deeper than the limit.  They become unreadable parts.
-/

/-- Arrays and objects may be nested this deep. -/
def nestingLimit : Nat := 127

/-- The white space of the format. -/
def isBlank (c : Char) : Bool :=
  c == ' ' || c == '\t' || c == '\n' || c == '\r'

/-- The text after leading white space. -/
def skipBlanks (text : List Char) : List Char :=
  text.dropWhile isBlank

/-! ## Strings -/

/-- The value of a hexadecimal digit of either case. -/
def hexValue? (c : Char) : Option Nat :=
  if c.isDigit then some (c.toNat - '0'.toNat)
  else if 'a' ≤ c ∧ c ≤ 'f' then some (c.toNat - 'a'.toNat + 10)
  else if 'A' ≤ c ∧ c ≤ 'F' then some (c.toNat - 'A'.toNat + 10)
  else none

/-- Four hexadecimal digits and what follows them. -/
def hexUnit? : List Char → Option (Nat × List Char)
  | a :: b :: c :: d :: rest => do
      let a ← hexValue? a
      let b ← hexValue? b
      let c ← hexValue? c
      let d ← hexValue? d
      some (((a * 16 + b) * 16 + c) * 16 + d, rest)
  | _ => none

/-- The character that a letter behind a backslash stands for. -/
def escaped? (c : Char) : Option Char :=
  if c = '"' ∨ c = '\\' ∨ c = '/' then some c
  else if c = 'b' then some '\x08'
  else if c = 'f' then some '\x0c'
  else if c = 'n' then some '\n'
  else if c = 'r' then some '\r'
  else if c = 't' then some '\t'
  else none

/-- The parts of a string up to its closing quotation mark: characters, and
16-bit units given by number. -/
inductive Piece where
  | char (value : Char)
  | unit (value : Nat)

/-- The pieces of a string whose opening quotation mark has been read, and what
follows the closing one.  The bound must exceed the length of the text. -/
def readPieces? : Nat → List Char → Option (List Piece × List Char)
  | 0, _ => none
  | _ + 1, [] => none
  | bound + 1, c :: rest =>
      if c = '"' then
        some ([], rest)
      else if c = '\\' then
        match rest with
        | [] => none
        | letter :: rest =>
            if letter = 'u' then do
              let (unit, rest) ← hexUnit? rest
              let (pieces, rest) ← readPieces? bound rest
              some (.unit unit :: pieces, rest)
            else do
              let value ← escaped? letter
              let (pieces, rest) ← readPieces? bound rest
              some (.char value :: pieces, rest)
      else if c.toNat < 0x20 then
        none
      else do
        let (pieces, rest) ← readPieces? bound rest
        some (.char c :: pieces, rest)

/-- The characters of a string.  A high surrogate must be followed by a low
one, and the two form one character; a low surrogate cannot stand alone. -/
def assemble? : List Piece → Option (List Char)
  | [] => some []
  | .char value :: rest => (assemble? rest).map (value :: ·)
  | .unit high :: .unit low :: rest =>
      if 0xD800 ≤ high ∧ high < 0xDC00 then
        if 0xDC00 ≤ low ∧ low < 0xE000 then
          (assemble? rest).map (Char.ofNat (0x10000 + (high - 0xD800) * 0x400 + (low - 0xDC00)) :: ·)
        else
          none
      else if 0xDC00 ≤ high ∧ high < 0xE000 then
        none
      else
        (assemble? (.unit low :: rest)).map (Char.ofNat high :: ·)
  | .unit value :: rest =>
      if 0xD800 ≤ value ∧ value < 0xE000 then none
      else (assemble? rest).map (Char.ofNat value :: ·)

/-- A string whose opening quotation mark has been read. -/
def readString? (text : List Char) : Option (Datum × List Char) := do
  let (pieces, rest) ← readPieces? (text.length + 1) text
  match assemble? pieces with
  | some chars => some (.text (String.ofList chars), rest)
  | none => some (.unreadable, rest)

/-! ## Values -/

/-- The text after a word that must stand in front. -/
def afterWord? : List Char → List Char → Option (List Char)
  | [], input => some input
  | expected :: word, c :: rest => if c = expected then afterWord? word rest else none
  | _ :: _, [] => none

/-- A value that is neither an array nor an object. -/
def readScalar? (text : List Char) : Option (Datum × List Char) :=
  match text with
  | '"' :: rest => readString? rest
  | 'n' :: rest => (afterWord? ['u', 'l', 'l'] rest).map fun rest => (.null, rest)
  | 't' :: rest => (afterWord? ['r', 'u', 'e'] rest).map fun rest => (.bool true, rest)
  | 'f' :: rest => (afterWord? ['a', 'l', 's', 'e'] rest).map fun rest => (.bool false, rest)
  | _ => do
      let (numeral, rest) ← Numeral.read? text
      match numeral.toNumber? with
      | some value => some (ofNumber value, rest)
      | none => some (.unreadable, rest)

/-- An array or object as it counts at a depth: unreadable when no level is
left. -/
def atDepth (depth : Nat) (datum : Datum) : Datum :=
  if depth = 0 then .unreadable else datum

mutual
/-- A value, leading white space skipped, and what follows it.  `depth` is the
number of levels that may still be nested.  The bound must exceed twice the
length of the text: every call but one in two consumes a character. -/
def readValue? : Nat → Nat → List Char → Option (Datum × List Char)
  | 0, _, _ => none
  | bound + 1, depth, input =>
      match skipBlanks input with
      | '[' :: rest =>
          match skipBlanks rest with
          | ']' :: rest => some (atDepth depth (.list []), rest)
          | _ => do
              let (items, rest) ← readItems? bound (depth - 1) rest
              some (atDepth depth (.list items), rest)
      | '{' :: rest =>
          match skipBlanks rest with
          | '}' :: rest => some (atDepth depth (.map []), rest)
          | _ => do
              let (entries, rest) ← readEntries? bound (depth - 1) rest
              some (atDepth depth (.map entries), rest)
      | other => readScalar? other

/-- The items of an array that is not empty, up to its closing bracket. -/
def readItems? : Nat → Nat → List Char → Option (List Datum × List Char)
  | 0, _, _ => none
  | bound + 1, depth, input => do
      let (item, rest) ← readValue? bound depth input
      match skipBlanks rest with
      | ',' :: rest => do
          let (items, rest) ← readItems? bound depth rest
          some (item :: items, rest)
      | ']' :: rest => some ([item], rest)
      | _ => none

/-- The members of an object that is not empty, up to its closing brace. -/
def readEntries? : Nat → Nat → List Char → Option (List (Datum × Datum) × List Char)
  | 0, _, _ => none
  | bound + 1, depth, input => do
      let (name, rest) ←
        match skipBlanks input with
        | '"' :: rest => readString? rest
        | _ => none
      let (value, rest) ←
        match skipBlanks rest with
        | ':' :: rest => readValue? bound depth rest
        | _ => none
      match skipBlanks rest with
      | ',' :: rest => do
          let (entries, rest) ← readEntries? bound depth rest
          some ((name, value) :: entries, rest)
      | '}' :: rest => some ([(name, value)], rest)
      | _ => none
end

/-- The datum of a JSON text. -/
def ofText? (text : String) : Option Datum := do
  let chars := text.toList
  let (datum, rest) ← readValue? (2 * chars.length + 2) nestingLimit chars
  if (skipBlanks rest).isEmpty then some datum else none

end Datum

/-- The document of a JSON text. -/
def Json.ofText? (text : String) : Option Json :=
  (Datum.ofText? text).bind Datum.toJson?

end Emend
