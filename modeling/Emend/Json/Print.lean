import Emend.Json
import Emend.Number.Numeral

namespace Emend
namespace Json

/-!
# The text of JSON values

Two layouts: a compact one without any blank, and an indented one with two
blanks a level.  Both write members in the order in which they stand, and both
leave every character as it is that a string may hold unescaped.
-/

/-! ## Strings -/

/-- The low-case hexadecimal digit of a number below 16. -/
def hexDigit (value : Nat) : Char :=
  if value < 10 then Char.ofNat ('0'.toNat + value) else Char.ofNat ('a'.toNat + (value - 10))

/-- One character inside quotes.  Quotation mark, backslash and the control
characters below the blank are escaped, five of them by a letter. -/
def escape (c : Char) : List Char :=
  if c = '"' then ['\\', '"']
  else if c = '\\' then ['\\', '\\']
  else if c = '\x08' then ['\\', 'b']
  else if c = '\x0c' then ['\\', 'f']
  else if c = '\n' then ['\\', 'n']
  else if c = '\r' then ['\\', 'r']
  else if c = '\t' then ['\\', 't']
  else if c.toNat < 0x20 then
    ['\\', 'u', '0', '0', hexDigit (c.toNat / 16), hexDigit (c.toNat % 16)]
  else [c]

/-- A string in quotation marks. -/
def quote (text : String) : List Char :=
  '"' :: text.toList.flatMap escape ++ ['"']

/-! ## Compact layout -/

mutual
/-- The compact text of a value. -/
def compactChars : Json → List Char
  | .null => ['n', 'u', 'l', 'l']
  | .bool true => ['t', 'r', 'u', 'e']
  | .bool false => ['f', 'a', 'l', 's', 'e']
  | .number value => value.write
  | .string value => quote value
  | .array items => '[' :: compactItems items ++ [']']
  | .object members => '{' :: compactMembers members ++ ['}']

/-- The items of an array with commas between them. -/
def compactItems : List Json → List Char
  | [] => []
  | [item] => compactChars item
  | item :: next :: rest => compactChars item ++ ',' :: compactItems (next :: rest)

/-- The members of an object with commas between them. -/
def compactMembers : List (String × Json) → List Char
  | [] => []
  | [(name, value)] => quote name ++ ':' :: compactChars value
  | (name, value) :: next :: rest =>
      quote name ++ ':' :: compactChars value ++ ',' :: compactMembers (next :: rest)
end

/-- The compact text of a value as a string. -/
def compact (value : Json) : String :=
  String.ofList value.compactChars

/-! ## Indented layout -/

/-- A new line with two blanks for each level. -/
def newLine (level : Nat) : List Char :=
  '\n' :: List.replicate (2 * level) ' '

mutual
/-- The indented text of a value that stands at a level.  Every item and every
member has a line of its own; empty arrays and objects stay on one line. -/
def indentedChars (level : Nat) : Json → List Char
  | .null => ['n', 'u', 'l', 'l']
  | .bool true => ['t', 'r', 'u', 'e']
  | .bool false => ['f', 'a', 'l', 's', 'e']
  | .number value => value.write
  | .string value => quote value
  | .array [] => ['[', ']']
  | .array (item :: rest) =>
      '[' :: indentedItems (level + 1) (item :: rest) ++ newLine level ++ [']']
  | .object [] => ['{', '}']
  | .object (member :: rest) =>
      '{' :: indentedMembers (level + 1) (member :: rest) ++ newLine level ++ ['}']

/-- The items of an array, each on a line of its own. -/
def indentedItems (level : Nat) : List Json → List Char
  | [] => []
  | [item] => newLine level ++ indentedChars level item
  | item :: next :: rest =>
      newLine level ++ indentedChars level item ++ ',' :: indentedItems level (next :: rest)

/-- The members of an object, each on a line of its own. -/
def indentedMembers (level : Nat) : List (String × Json) → List Char
  | [] => []
  | [(name, value)] => newLine level ++ quote name ++ ':' :: ' ' :: indentedChars level value
  | (name, value) :: next :: rest =>
      newLine level ++ quote name ++ ':' :: ' ' :: indentedChars level value ++
        ',' :: indentedMembers level (next :: rest)
end

/-- The indented text of a value as a string. -/
def indented (value : Json) : String :=
  String.ofList (value.indentedChars 0)

end Json
end Emend
