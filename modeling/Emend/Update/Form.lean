import Emend.Operation.Form
import Emend.Update

namespace Emend

/-!
# The form of updates

An update is written as a record.  The collection is left out when there is
none and the notes when they are empty; the sort expressions and the limit
always stand, the limit as null when there is none.  When updates are read,
everything but the operations may be left out, and the sort expressions are
taken as they are.
-/

/-! ## Notes -/

namespace Note

/-- The variants of notes, in the order of their numbers. -/
inductive Variant where
  | overrides
  | restoresPatchedNull

def Variant.options : List (String × Variant) :=
  [("overrides", .overrides), ("restores_patched_null", .restoresPatchedNull)]

/-- The written form of a note. -/
def toForm : Note → Json
  | .overrides index earlier path =>
      .object [("note", .string "overrides"), ("index", .number (.ofUInt64 index)),
        ("earlier", .number (.ofUInt64 earlier)), ("path", .string path.write)]
  | .restoresPatchedNull index patchIndex path =>
      .object [("note", .string "restores_patched_null"), ("index", .number (.ofUInt64 index)),
        ("patch_index", .number (.ofUInt64 patchIndex)), ("path", .string path.write)]

/-- Two indices and a path, the fields of every note; `other` names the second
index. -/
def fieldsOfForm? (other : String) (record : Datum) : Option (UInt64 × UInt64 × Path) := do
  match ← record.slots? ["index", other, "path"] with
  | [index, earlier, path] =>
      let index ← index.required? Datum.toUInt64?
      let earlier ← earlier.required? Datum.toUInt64?
      let path ← path.required? Path.ofForm?
      some (index, earlier, path)
  | _ => none

/-- A note from its form. -/
def ofForm? (datum : Datum) : Option Note := do
  let (tag, record) ← datum.untag? "note"
  match ← Datum.choice? Variant.options tag with
  | .overrides =>
      let (index, earlier, path) ← fieldsOfForm? "earlier" record
      some (.overrides index earlier path)
  | .restoresPatchedNull =>
      let (index, patchIndex, path) ← fieldsOfForm? "patch_index" record
      some (.restoresPatchedNull index patchIndex path)

end Note

/-! ## Updates -/

namespace Update

/-- The written form of an update. -/
def toForm (update : Update) : Json :=
  let collection := update.collection.toList.map fun name => ("collection", Json.string name)
  let operations := ("operations", Json.array (update.operations.map Operation.toForm))
  let sort := ("sort", Json.array (update.sort.map .string))
  let limit := ("limit", (update.limit.map fun rows => Json.number (.ofUInt64 rows)).getD .null)
  let notes :=
    if update.notes.isEmpty then [] else [("notes", Json.array (update.notes.map Note.toForm))]
  .object (collection ++ [operations, sort, limit] ++ notes)

/-- An update from its form. -/
def ofForm? (datum : Datum) : Option Update := do
  match ← datum.slots? ["collection", "operations", "sort", "limit", "notes"] with
  | [collection, operations, sort, limit, notes] =>
      let collection ← collection.orElse? none (Datum.orNull? Datum.toText?)
      let operations ← operations.required? (Datum.toList? Operation.ofForm?)
      let sort ← sort.orElse? [] (Datum.toList? Datum.toText?)
      let limit ← limit.orElse? none (Datum.orNull? Datum.toUInt64?)
      let notes ← notes.orElse? [] (Datum.toList? Note.ofForm?)
      some ⟨collection, operations, sort, limit, notes⟩
  | _ => none

end Update
end Emend
