import Emend.Datum.Record
import Emend.Operation
import Emend.Path.Reader

namespace Emend

/-!
# The form of operations

An operation is written as a tagged value with its kind as the tag.  Paths are
written canonically and an absent payload as null.  When operations are read,
a path may be any text of it, and a payload may be left out.
-/

namespace Path

/-- A path, which may be the root, from its text. -/
def ofForm? (datum : Datum) : Option Path :=
  datum.toText?.bind fun text => (read text).toOption

end Path

namespace Payload

/-- A payload from its value; null is an absent one. -/
def ofForm? (datum : Datum) : Option Payload :=
  datum.toJson?.map ofJson

end Payload

namespace Operation

/-! ## Kinds -/

/-- The kinds by their names, in the order of their numbers. -/
def Kind.options : List (String × Kind) :=
  Kind.all.map fun kind => (kind.name, kind)

/-- A kind from its name, or from an object that maps its name to null. -/
def Kind.ofForm? : Datum → Option Kind
  | .text name => options.lookup name
  | .map [(.text name, .null)] => options.lookup name
  | _ => none

/-! ## Operations -/

/-- The written form of an operation. -/
def toForm (operation : Operation) : Json :=
  let tag := ("op", Json.string operation.kind.name)
  match operation with
  | .set path value | .change path value | .arrayInsert path value | .arrayAppend path value =>
      .object [tag, ("path", .string path.write), ("value", value.toJson)]
  | .unset path => .object [tag, ("path", .string path.write)]
  | .patch document => .object [tag, ("document", .object document)]

/-- The members of what is known to be an object, so that bytes serve for any of
the names. -/
def membersOfForm? : Datum → Option (Members Json)
  | .map entries => (Datum.toMembers? entries).map Members.ofList
  | _ => none

/-- A path and a payload, the fields of most operations. -/
def placeOfForm? (record : Datum) : Option (Path × Payload) := do
  match ← record.slots? ["path", "value"] with
  | [path, value] =>
      let path ← path.required? Path.ofForm?
      let value ← value.orElse? .absent Payload.ofForm?
      some (path, value)
  | _ => none

/-- The operation of a kind from its fields. -/
def ofFields? (kind : Kind) (record : Datum) : Option Operation :=
  match kind with
  | .set => (placeOfForm? record).map fun (path, value) => .set path value
  | .change => (placeOfForm? record).map fun (path, value) => .change path value
  | .arrayInsert => (placeOfForm? record).map fun (path, value) => .arrayInsert path value
  | .arrayAppend => (placeOfForm? record).map fun (path, value) => .arrayAppend path value
  | .unset => do
      match ← record.slots? ["path"] with
      | [path] => (path.required? Path.ofForm?).map .unset
      | _ => none
  | .patch => do
      match ← record.slots? ["document"] with
      | [document] => (document.required? membersOfForm?).map .patch
      | _ => none

/-- An operation from its form. -/
def ofForm? (datum : Datum) : Option Operation := do
  let (tag, record) ← datum.untag? "op"
  let kind ← Datum.choice? Kind.options tag
  ofFields? kind record

end Operation
end Emend
