import Emend.Datum

namespace Emend
namespace Datum

/-!
# Records and tagged values

A record has declared fields in a fixed order.  It is given as a map from field
names, in any order and with other names among them, or as a list of the field
values from the first on.  A tagged value is a record with one more field, the
tag, which names the variant and so decides the other fields; as a list it has
the tag in front.

An integer that may stand in for a name is the number of a field in the
declared order, or of a variant in the order of the variants.
-/

/-! ## Fields -/

/-- What a record says about one declared field. -/
inductive Slot where
  /-- The field has a value. -/
  | given (datum : Datum)
  /-- A map leaves the field out. -/
  | missing
  /-- A list ends before the field. -/
  | cut

/-- The declared field that a name in a map stands for, as its number.  The
outer `none` rejects data that cannot be names; the inner one stands for a name
of no declared field. -/
def fieldNumber? (fields : List String) : Datum → Option (Option Nat)
  | .text name => some (fields.idxOf? name)
  | .bytes name _ => some ((Text.ofUtf8? name).bind fields.idxOf?)
  | .integer value naming =>
      if value.value < 0 || !naming.direct then none
      else if value.value < fields.length then some (some value.value.toNat)
      else some none
  | _ => none

/-- The values of a map together with the fields they belong to. -/
def numbered? (fields : List String) (entries : List (Datum × Datum)) :
    Option (List (Option Nat × Datum)) :=
  entries.mapM fun entry => (fieldNumber? fields entry.1).map fun number => (number, entry.2)

/-- What a record says about its declared fields, in their order.  A field may
not be given twice, and a list may not be longer than the fields. -/
def slots? (fields : List String) (datum : Datum) : Option (List Slot) :=
  match datum with
  | .map entries => do
      let numbered ← numbered? fields entries
      (List.range fields.length).mapM fun number =>
        match numbered.filter fun entry => entry.1 == some number with
        | [] => some .missing
        | [(_, datum)] => some (.given datum)
        | _ => none
  | _ => do
      let items ← datum.items?
      if items.length ≤ fields.length then
        some (items.map .given ++ List.replicate (fields.length - items.length) .cut)
      else
        none

namespace Slot

/-- A field that must be given. -/
def required? {Value : Type} (read : Datum → Option Value) : Slot → Option Value
  | .given datum => read datum
  | .missing | .cut => none

/-- A field that stands for a fixed value wherever it is not given. -/
def orElse? {Value : Type} (default : Value) (read : Datum → Option Value) : Slot → Option Value
  | .given datum => read datum
  | .missing | .cut => some default

/-- A field that a map may leave out, but a list may not. -/
def orMissing? {Value : Type} (default : Value) (read : Datum → Option Value) : Slot → Option Value
  | .given datum => read datum
  | .missing => some default
  | .cut => none

end Slot

/-! ## Tags -/

/-- The option that a datum names, by its name or by its number in the list. -/
def choice? {Value : Type} (options : List (String × Value)) : Datum → Option Value
  | .text name => options.lookup name
  | .bytes name _ => (Text.ofUtf8? name).bind fun name => options.lookup name
  | .integer value naming =>
      if naming.direct && decide (0 ≤ value.value) then (options[value.value.toNat]?).map (·.2)
      else none
  | _ => none

/-- Whether a name in a map is the given one. -/
def isNamed (name : String) (key : Datum) : Bool :=
  key.toText? == some name

/-- The tag of a tagged value, and the record of its other fields, which was set
aside until the tag was known.  The whole value must be readable, also where it
says nothing about a declared field. -/
def untag? (tag : String) (datum : Datum) : Option (Datum × Datum) :=
  if datum.readable then
    match datum with
    | .map entries =>
        match entries.filter fun entry => isNamed tag entry.1 with
        | [(_, value)] =>
            let fields := entries.filter fun entry => !isNamed tag entry.1
            some (value, setAside (.map fields))
        | _ => none
    | .list (value :: fields) => some (value, setAside (.list fields))
    | _ => none
  else
    none

/-- A variant without fields: a map of anything, or an empty list. -/
def isEmptyRecord : Datum → Bool
  | .map _ => true
  | .list items => items.isEmpty
  | _ => false

end Datum
end Emend
