import Emend.Datum.Record
import Emend.Request

namespace Emend
namespace Request

/-!
# The form of requests

Requests are written by hand, so all but the operations may be left out.  The
paths in them are texts that are not looked at before the request is replayed.
-/

/-! ## Entries -/

/-- The variants of entries, in the order of their numbers. -/
inductive Entry.Variant where
  | set
  | change
  | unset
  | patch
  | arrayInsert
  | arrayAppend
  | merge
  | arrayDelete

def Entry.Variant.options : List (String × Entry.Variant) :=
  [("set", .set), ("change", .change), ("unset", .unset), ("patch", .patch),
    ("array_insert", .arrayInsert), ("array_append", .arrayAppend), ("merge", .merge),
    ("array_delete", .arrayDelete)]

/-- The written form of a record with a path and a value. -/
def Entry.placeForm (tag path : String) (value : Option Json) : Json :=
  .object [("op", .string tag), ("path", .string path), ("value", value.getD .null)]

/-- The written form of an entry. -/
def Entry.toForm : Entry → Json
  | .set path value => placeForm "set" path value
  | .change path value => placeForm "change" path value
  | .unset paths => .object [("op", .string "unset"), ("paths", .array (paths.map .string))]
  | .patch document => .object [("op", .string "patch"), ("document", document)]
  | .arrayInsert path value => placeForm "array_insert" path value
  | .arrayAppend path value => placeForm "array_append" path value
  | .merge document => .object [("op", .string "merge"), ("document", document)]
  | .arrayDelete path position =>
      .object [("op", .string "array_delete"), ("path", .string path),
        ("position", .number (.ofInt64 position))]

/-- A path text and a value that may be missing. -/
def Entry.placeOfForm? (record : Datum) : Option (String × Option Json) := do
  match ← record.slots? ["path", "value"] with
  | [path, value] =>
      let path ← path.required? Datum.toText?
      let value ← value.orElse? none (Datum.orNull? Datum.toJson?)
      some (path, value)
  | _ => none

/-- A document, which may be null but not missing. -/
def Entry.documentOfForm? (record : Datum) : Option Json := do
  match ← record.slots? ["document"] with
  | [document] => document.required? Datum.toJson?
  | _ => none

/-- The entry of a variant from its fields. -/
def Entry.ofFields? (variant : Entry.Variant) (record : Datum) : Option Entry :=
  match variant with
  | .set => (placeOfForm? record).map fun (path, value) => .set path value
  | .change => (placeOfForm? record).map fun (path, value) => .change path value
  | .unset => do
      match ← record.slots? ["paths"] with
      | [paths] => (paths.required? (Datum.toList? Datum.toText?)).map .unset
      | _ => none
  | .patch => (documentOfForm? record).map .patch
  | .arrayInsert => (placeOfForm? record).map fun (path, value) => .arrayInsert path value
  | .arrayAppend => (placeOfForm? record).map fun (path, value) => .arrayAppend path value
  | .merge => (documentOfForm? record).map .merge
  | .arrayDelete => do
      match ← record.slots? ["path", "position"] with
      | [path, position] =>
          let path ← path.required? Datum.toText?
          let position ← position.required? Datum.toInt64?
          some (.arrayDelete path position)
      | _ => none

/-- An entry from its form. -/
def Entry.ofForm? (datum : Datum) : Option Entry := do
  let (tag, record) ← datum.untag? "op"
  let variant ← Datum.choice? Entry.Variant.options tag
  Entry.ofFields? variant record

/-! ## Requests -/

/-- The written form of a request. -/
def toForm (request : Request) : Json :=
  let collection := request.collection.toList.map fun name => ("collection", Json.string name)
  let operations := ("operations", Json.array (request.operations.map Entry.toForm))
  let sort :=
    if request.sort.isEmpty then [] else [("sort", Json.array (request.sort.map .string))]
  let limit := request.limit.toList.map fun rows => ("limit", Json.number (.ofInt64 rows))
  .object (collection ++ [operations] ++ sort ++ limit)

/-- A request from its form. -/
def ofForm? (datum : Datum) : Option Request := do
  match ← datum.slots? ["collection", "operations", "sort", "limit"] with
  | [collection, operations, sort, limit] =>
      let collection ← collection.orElse? none (Datum.orNull? Datum.toText?)
      let operations ← operations.required? (Datum.toList? Entry.ofForm?)
      let sort ← sort.orElse? [] (Datum.toList? Datum.toText?)
      let limit ← limit.orElse? none (Datum.orNull? Datum.toInt64?)
      some ⟨collection, operations, sort, limit⟩
  | _ => none

/-- The request of a JSON text. -/
def ofText? (text : String) : Option Request :=
  (Datum.ofText? text).bind ofForm?

end Request
end Emend
