import Emend.Json
import Emend.Text.Utf8

namespace Emend

/-!
# Incoming data

A datum is what a reader of JSON text or of MessagePack bytes finds before it
is known what the data are for.  It is wider than a JSON value: members keep
their order and may be repeated, names need not be strings, and some parts can
be recognised without having a value.

Such a part does no harm where it is skipped, and makes the reading fail where
its value is asked for.

Some data are taken for what they are as they come.  Others are first set aside
as a whole, because only a later part, their tag, tells what they are.  The
value of a part does not depend on that, but what else it may stand for does:
an integer for a name, and bytes for a list.
-/

/-- Where an integer may stand in for a name. -/
structure Naming where
  /-- In data that are read as they come. -/
  direct : Bool
  /-- In data that were set aside. -/
  aside : Bool
  deriving DecidableEq

namespace Naming

def everywhere : Naming := ⟨true, true⟩

def nowhere : Naming := ⟨false, false⟩

def onlyDirect : Naming := ⟨true, false⟩

def onlyAside : Naming := ⟨false, true⟩

/-- What is left of it in data that were set aside. -/
def setAside (naming : Naming) : Naming :=
  ⟨naming.aside, naming.aside⟩

end Naming

inductive Datum where
  | null
  | bool (value : Bool)
  | integer (value : Integer64) (naming : Naming)
  | float (value : Binary64)
  /-- An infinity or an undefined binary number. -/
  | nonFinite
  | text (value : String)
  /-- Bytes that were not declared, or do not form, a text.  Those that are
  `listed` may stand for the list of their values. -/
  | bytes (value : List UInt8) (listed : Bool)
  | list (items : List Datum)
  | map (entries : List (Datum × Datum))
  /-- A value of an application's own type. -/
  | extension
  /-- A part of a text that is spelled correctly and has no value. -/
  | unreadable

namespace Datum

/-! ## Simple readings -/

/-- A string.  Bytes that form a text are accepted for it. -/
def toText? : Datum → Option String
  | .text value => some value
  | .bytes value _ => Text.ofUtf8? value
  | _ => none

/-- An unsigned integer of 64 bits. -/
def toUInt64? : Datum → Option UInt64
  | .integer value _ => if 0 ≤ value.value then some (UInt64.ofNat value.value.toNat) else none
  | _ => none

/-- A signed integer of 64 bits. -/
def toInt64? : Datum → Option Int64
  | .integer value _ => if value.value < Nat.pow 2 63 then some (Int64.ofInt value.value) else none
  | _ => none

/-- The value of a byte. -/
def ofByte (byte : UInt8) : Datum :=
  .integer ⟨byte.toNat, by have := byte.toNat_lt; omega⟩ .everywhere

/-- The items of a list, or of bytes that stand for one. -/
def items? : Datum → Option (List Datum)
  | .list items => some items
  | .bytes value listed => if listed then some (value.map ofByte) else none
  | _ => none

/-- A list in which every item is read alike. -/
def toList? {Value : Type} (read : Datum → Option Value) (datum : Datum) : Option (List Value) :=
  datum.items?.bind fun items => items.mapM read

/-- A value that may be null. -/
def orNull? {Value : Type} (read : Datum → Option Value) : Datum → Option (Option Value)
  | .null => some none
  | datum => (read datum).map some

/-! ## Conversions -/

/-- The datum of a number.  In JSON an integer can name only where data were
set aside. -/
def ofNumber : Number → Datum
  | .integer value => .integer value .onlyAside
  | .float value => .float value

mutual
/-- The datum of a JSON value. -/
def ofJson : Json → Datum
  | .null => .null
  | .bool value => .bool value
  | .number value => ofNumber value
  | .string value => .text value
  | .array items => .list (ofItems items)
  | .object members => .map (ofMembers members)

/-- The data of the items of an array. -/
def ofItems : List Json → List Datum
  | [] => []
  | item :: rest => ofJson item :: ofItems rest

/-- The data of the members of an object. -/
def ofMembers : List (String × Json) → List (Datum × Datum)
  | [] => []
  | (name, value) :: rest => (.text name, ofJson value) :: ofMembers rest
end

/-- Whether a map, unless it is empty, begins with a name that is a text. -/
def beginsWithText : List (Datum × Datum) → Bool
  | [] | (.text _, _) :: _ => true
  | _ :: _ => false

mutual
/-- The document that a datum denotes.  Of a repeated name the last value
counts, and a number that is not finite becomes null.  A map is known for an
object by its first name, which must be a text; bytes serve for the others. -/
def toJson? : Datum → Option Json
  | .null => some .null
  | .bool value => some (.bool value)
  | .integer value _ => some (.number (.integer value))
  | .float value => some (.number (.float value))
  | .nonFinite => some .null
  | .text value => some (.string value)
  | .list items => (toItems? items).map .array
  | .map entries =>
      if beginsWithText entries then
        (toMembers? entries).map fun members => .object (Members.ofList members)
      else
        none
  | .bytes _ _ | .extension | .unreadable => none

/-- The values of a list, if each has one. -/
def toItems? : List Datum → Option (List Json)
  | [] => some []
  | item :: rest => do
      let value ← toJson? item
      let values ← toItems? rest
      some (value :: values)

/-- The named values of a map, if every name is read as a text and each has a
value. -/
def toMembers? : List (Datum × Datum) → Option (List (String × Json))
  | [] => some []
  | (key, datum) :: rest => do
      let name ← toText? key
      let value ← toJson? datum
      let members ← toMembers? rest
      some ((name, value) :: members)
end

/-! ## Data set aside -/

mutual
/-- The datum after it was set aside.  Its value stays the same; its integers
name only what they may name there, and bytes are no longer lists. -/
def setAside : Datum → Datum
  | .integer value naming => .integer value naming.setAside
  | .bytes value _ => .bytes value false
  | .list items => .list (setAsideItems items)
  | .map entries => .map (setAsideEntries entries)
  | .null => .null
  | .bool value => .bool value
  | .float value => .float value
  | .nonFinite => .nonFinite
  | .text value => .text value
  | .extension => .extension
  | .unreadable => .unreadable

/-- `setAside` for each item of a list. -/
def setAsideItems : List Datum → List Datum
  | [] => []
  | item :: rest => setAside item :: setAsideItems rest

/-- `setAside` for each name and each value of a map. -/
def setAsideEntries : List (Datum × Datum) → List (Datum × Datum)
  | [] => []
  | (name, value) :: rest => (setAside name, setAside value) :: setAsideEntries rest
end

mutual
/-- No part of the datum is unreadable. -/
def readable : Datum → Bool
  | .unreadable => false
  | .list items => readableItems items
  | .map entries => readableEntries entries
  | .null | .bool _ | .integer _ _ | .float _ | .nonFinite | .text _ | .bytes _ _
  | .extension => true

/-- `readable` for each item of a list. -/
def readableItems : List Datum → Bool
  | [] => true
  | item :: rest => readable item && readableItems rest

/-- `readable` for each name and each value of a map. -/
def readableEntries : List (Datum × Datum) → Bool
  | [] => true
  | (name, value) :: rest => readable name && readable value && readableEntries rest
end

end Datum
end Emend
