import Emend.Datum.Text

namespace Emend

/-!
# Payloads

A payload is the value that comes with an operation.  Whatever makes a payload of
a value that may be null makes null and no value at all the same payload, the
absent one.  Nothing else keeps null out: a null that is handed over as a payload of
its own is present and stays so, until it is written and read again.
-/

inductive Payload where
  | absent
  | present (value : Json)

namespace Payload

/-! ## Making payloads -/

/-- The payload of a JSON value, absent when the value is null. -/
def ofJson (value : Json) : Payload :=
  if value.isNull then .absent else .present value

/-- The payload of a value that may be missing. -/
def ofOption : Option Payload → Payload
  | some payload => payload
  | none => .absent

def ofBool (value : Bool) : Payload :=
  .present (.bool value)

def ofInt64 (value : Int64) : Payload :=
  .present (.number (.ofInt64 value))

def ofUInt64 (value : UInt64) : Payload :=
  .present (.number (.ofUInt64 value))

/-- The payload of a binary number, absent when the number is not finite. -/
def ofFloat : Option Binary64 → Payload
  | some value => .present (.number (.float value))
  | none => .absent

def ofString (value : String) : Payload :=
  .present (.string value)

def ofArray (items : List Json) : Payload :=
  .present (.array items)

def ofObject (members : Members Json) : Payload :=
  .present (.object members)

/-- The payload of a JSON text. -/
def ofText? (text : String) : Option Payload :=
  (Json.ofText? text).map ofJson

/-! ## Using payloads -/

def isAbsent : Payload → Bool
  | .absent => true
  | .present _ => false

/-- The value, if one is present. -/
def value? : Payload → Option Json
  | .absent => none
  | .present value => some value

/-- The value, with null for an absent one. -/
def toJson : Payload → Json
  | .absent => .null
  | .present value => value

end Payload
end Emend
