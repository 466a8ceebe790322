import Emend.Datum
import Emend.Wire.Bytes

namespace Emend
namespace MessagePack

/-!
# MessagePack

Values are written in the shortest form that the format has for them; binary64
numbers always take eight bytes.  A reader accepts every form, and takes no
notice of what follows the first value.
-/

open Wire

/-! ## Writing -/

/-- A length: in the first byte itself when it is below `short`, otherwise
behind one of the given first bytes in the width that goes with it. -/
def writeLength (first short : Nat) (wider : List (UInt8 × Nat)) (length : Nat) : List UInt8 :=
  if length < short then
    [UInt8.ofNat (first + length)]
  else
    match wider.find? fun form => length < Nat.pow 256 form.2 with
    | some (byte, width) => byte :: bigEndian width length
    | none => []

/-- The start of a text with so many bytes. -/
def textStart (length : Nat) : List UInt8 :=
  writeLength 0xa0 32 [(0xd9, 1), (0xda, 2), (0xdb, 4)] length

/-- The start of an array with so many items. -/
def arrayStart (length : Nat) : List UInt8 :=
  writeLength 0x90 16 [(0xdc, 2), (0xdd, 4)] length

/-- The start of a map with so many members. -/
def mapStart (length : Nat) : List UInt8 :=
  writeLength 0x80 16 [(0xde, 2), (0xdf, 4)] length

/-- A text. -/
def writeText (text : String) : List UInt8 :=
  let bytes := Text.utf8 text
  textStart bytes.length ++ bytes

/-- An integer.  Those that are not negative take the unsigned forms. -/
def writeInteger (value : Int) : List UInt8 :=
  if 0 ≤ value then
    if value < 0x80 then [UInt8.ofNat value.toNat]
    else if value < 0x100 then 0xcc :: bigEndian 1 value.toNat
    else if value < 0x10000 then 0xcd :: bigEndian 2 value.toNat
    else if value < 0x100000000 then 0xce :: bigEndian 4 value.toNat
    else 0xcf :: bigEndian 8 value.toNat
  else
    if -0x20 ≤ value then signedBigEndian 1 value
    else if -0x80 ≤ value then 0xd0 :: signedBigEndian 1 value
    else if -0x8000 ≤ value then 0xd1 :: signedBigEndian 2 value
    else if -0x80000000 ≤ value then 0xd2 :: signedBigEndian 4 value
    else 0xd3 :: signedBigEndian 8 value

/-- A number. -/
def writeNumber : Number → List UInt8
  | .integer value => writeInteger value.value
  | .float value => 0xcb :: bigEndian 8 value.bits

mutual
/-- The bytes of a value.  The members of an object keep their order. -/
def write : Json → List UInt8
  | .null => [0xc0]
  | .bool false => [0xc2]
  | .bool true => [0xc3]
  | .number value => writeNumber value
  | .string value => writeText value
  | .array items => arrayStart items.length ++ writeItems items
  | .object members => mapStart members.length ++ writeMembers members

/-- The bytes of the items of an array. -/
def writeItems : List Json → List UInt8
  | [] => []
  | item :: rest => write item ++ writeItems rest

/-- The bytes of the members of an object, each name in front of its value. -/
def writeMembers : List (String × Json) → List UInt8
  | [] => []
  | (name, value) :: rest => writeText name ++ write value ++ writeMembers rest
end

/-! ## First bytes -/

/-- Where the length of a value is found. -/
inductive Length where
  | known (length : Nat)
  | inBytes (width : Nat)
  deriving DecidableEq

/-- What the first byte of a value says about it. -/
inductive Marker where
  | null
  | bool (value : Bool)
  | small (value : Int)
  | unsigned (width : Nat)
  | signed (width : Nat)
  | single
  | double
  | text (length : Length)
  | bytes (length : Length)
  | array (length : Length)
  | map (length : Length)
  | extension (length : Length)
  | reserved
  deriving DecidableEq

/-- The meaning of a first byte. -/
def Marker.ofByte (byte : UInt8) : Marker :=
  let code := byte.toNat
  if code < 0x80 then .small code
  else if code < 0x90 then .map (.known (code - 0x80))
  else if code < 0xa0 then .array (.known (code - 0x90))
  else if code < 0xc0 then .text (.known (code - 0xa0))
  else if 0xe0 ≤ code then .small ((code : Int) - 0x100)
  else
    match code with
    | 0xc0 => .null
    | 0xc2 => .bool false
    | 0xc3 => .bool true
    | 0xc4 => .bytes (.inBytes 1)
    | 0xc5 => .bytes (.inBytes 2)
    | 0xc6 => .bytes (.inBytes 4)
    | 0xc7 => .extension (.inBytes 1)
    | 0xc8 => .extension (.inBytes 2)
    | 0xc9 => .extension (.inBytes 4)
    | 0xca => .single
    | 0xcb => .double
    | 0xcc => .unsigned 1
    | 0xcd => .unsigned 2
    | 0xce => .unsigned 4
    | 0xcf => .unsigned 8
    | 0xd0 => .signed 1
    | 0xd1 => .signed 2
    | 0xd2 => .signed 4
    | 0xd3 => .signed 8
    | 0xd4 => .extension (.known 1)
    | 0xd5 => .extension (.known 2)
    | 0xd6 => .extension (.known 4)
    | 0xd7 => .extension (.known 8)
    | 0xd8 => .extension (.known 16)
    | 0xd9 => .text (.inBytes 1)
    | 0xda => .text (.inBytes 2)
    | 0xdb => .text (.inBytes 4)
    | 0xdc => .array (.inBytes 2)
    | 0xdd => .array (.inBytes 4)
    | 0xde => .map (.inBytes 2)
    | 0xdf => .map (.inBytes 4)
    | _ => .reserved

/-! ## Reading -/

/-- Lists, maps and extensions may be nested this deep. -/
def nestingLimit : Nat := 1023

/-- A length, and the bytes behind it. -/
def readLength? (length : Length) (bytes : List UInt8) : Option (Nat × List UInt8) :=
  match length with
  | .known length => some (length, bytes)
  | .inBytes width => takeNat? width bytes

/-- Which names an integer may stand for, by the width of its form in bytes.
Only unsigned forms can name; set aside, those of one byte and of eight bytes
still can. -/
def naming (width : Nat) : Naming :=
  if width = 1 || width = 8 then .everywhere else .onlyDirect

/-- The datum of an integer. -/
def integer? (value : Int) (naming : Naming) : Option Datum :=
  (Integer64.ofInt? value).map fun value => .integer value naming

/-- The datum of a binary number that may not be finite. -/
def float (value : Option Binary64) : Datum :=
  match value with
  | some value => .float value
  | none => .nonFinite

/-- The datum of the bytes of a text. -/
def textDatum (bytes : List UInt8) : Datum :=
  match Text.ofUtf8? bytes with
  | some text => .text text
  | none => .bytes bytes false

/-- A name and a value, as `read` reads them, and the bytes behind. -/
def readMember? (read : List UInt8 → Option (Datum × List UInt8)) (bytes : List UInt8) :
    Option ((Datum × Datum) × List UInt8) := do
  let (name, rest) ← read bytes
  let (value, rest) ← read rest
  some ((name, value), rest)

/-- A value in front of bytes, and the bytes behind it.  `depth` is the number
of levels that may still be nested. -/
def read? (depth : Nat) (bytes : List UInt8) : Option (Datum × List UInt8) :=
  match bytes with
  | [] => none
  | first :: rest =>
      match Marker.ofByte first with
      | .null => some (.null, rest)
      | .bool value => some (.bool value, rest)
      | .small value => (integer? value (naming 1)).map fun datum => (datum, rest)
      | .unsigned width => do
          let (value, rest) ← takeNat? width rest
          let datum ← integer? value (naming width)
          some (datum, rest)
      | .signed width => do
          let (front, rest) ← takeBytes? width rest
          let datum ← integer? (ofSignedBigEndian front) .nowhere
          some (datum, rest)
      | .single => do
          let (bits, rest) ← takeNat? 4 rest
          some (float (Binary64.ofSingleBits? bits), rest)
      | .double => do
          let (bits, rest) ← takeNat? 8 rest
          some (float (Binary64.ofBits? bits), rest)
      | .text length => do
          let (length, rest) ← readLength? length rest
          let (front, rest) ← takeBytes? length rest
          some (textDatum front, rest)
      | .bytes length => do
          let (length, rest) ← readLength? length rest
          let (front, rest) ← takeBytes? length rest
          some (.bytes front true, rest)
      | .extension length =>
          match depth with
          | 0 => none
          | _ + 1 => do
              let (length, rest) ← readLength? length rest
              let (_, rest) ← takeBytes? (length + 1) rest
              some (.extension, rest)
      | .array length =>
          match depth with
          | 0 => none
          | depth + 1 => do
              let (length, rest) ← readLength? length rest
              let (items, rest) ← takeMany? (read? depth) length rest
              some (.list items, rest)
      | .map length =>
          match depth with
          | 0 => none
          | depth + 1 => do
              let (length, rest) ← readLength? length rest
              let (entries, rest) ← takeMany? (readMember? (read? depth)) length rest
              some (.map entries, rest)
      | .reserved => none

/-- The first value of a message. -/
def ofBytes? (bytes : List UInt8) : Option Datum :=
  (read? nestingLimit bytes).map (·.1)

end MessagePack
end Emend
