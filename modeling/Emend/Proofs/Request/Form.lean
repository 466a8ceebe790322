import Emend.Proofs.Datum.Record
import Emend.Proofs.Datum.Sorted
import Emend.Request.Form

namespace Emend
namespace Request

/-!
# Requests are read back

A request is read from its form if the values in it are documents.  Paths and sort
expressions are texts here, and they come back letter by letter.  There is one difference
between what is written and what is read: a value that is null comes back as a missing one,
since both are written as null.
-/

/-! ## Entries -/

namespace Entry

/-- The values in the entry are documents. -/
def WellFormed : Entry -> Prop
  | .set _ value | .change _ value | .arrayInsert _ value | .arrayAppend _ value =>
      forall found, value = some found -> found.WellFormed
  | .patch document | .merge document => document.WellFormed
  | .unset _ | .arrayDelete _ _ => True

/-- The value that is read where this one was written: null becomes missing. -/
def receivedValue : Option Json -> Option Json :=
  Option.filter fun value => !value.isNull

/-- The entry that is read where this one was written. -/
def received : Entry -> Entry
  | .set path value => .set path (receivedValue value)
  | .change path value => .change path (receivedValue value)
  | .arrayInsert path value => .arrayInsert path (receivedValue value)
  | .arrayAppend path value => .arrayAppend path (receivedValue value)
  | .unset paths => .unset paths
  | .patch document => .patch document
  | .merge document => .merge document
  | .arrayDelete path position => .arrayDelete path position

def Variant.name : Variant -> String
  | .set => "set"
  | .change => "change"
  | .unset => "unset"
  | .patch => "patch"
  | .arrayInsert => "array_insert"
  | .arrayAppend => "array_append"
  | .merge => "merge"
  | .arrayDelete => "array_delete"

theorem lookup_name (variant : Variant) :
    Variant.options.lookup variant.name = some variant := by
  cases variant <;> rfl

def variant : Entry -> Variant
  | .set _ _ => .set
  | .change _ _ => .change
  | .unset _ => .unset
  | .patch _ => .patch
  | .arrayInsert _ _ => .arrayInsert
  | .arrayAppend _ _ => .arrayAppend
  | .merge _ => .merge
  | .arrayDelete _ _ => .arrayDelete

/-- The fields of an entry, without its tag. -/
def formFields (entry : Entry) : List (String × Json) :=
  entry.toForm.members.tail

theorem toForm_eq (entry : Entry) :
    entry.toForm = .object (("op", .string entry.variant.name) :: entry.formFields) := by
  cases entry <;> rfl

theorem distinct_formFields (entry : Entry) :
    (forall field, field ∈ entry.formFields -> field.1 ≠ "op") ∧
      (entry.formFields.map Prod.fst).Nodup := by
  cases entry <;> simp [formFields, toForm, placeForm, Json.members]

theorem sure_receivedValue {value : Option Json}
    (wellFormed : forall found, value = some found -> found.WellFormed) :
    Datum.Sure (Datum.orNull? Datum.toJson?) (value.getD .null) (receivedValue value) := by
  cases value with
  | none => exact Datum.sure_orNull?_null
  | some found =>
      have sure := Datum.sure_toJson? (wellFormed found rfl)
      cases found with
      | null => exact Datum.sure_orNull?_null
      | bool | number | string | array | object => exact sure.orNull? rfl

theorem placeOfForm?_of_shows {record : Datum} {path : String} {value : Option Json}
    (wellFormed : forall found, value = some found -> found.WellFormed)
    (shows : Datum.Shows record
      (.object [("path", .string path), ("value", value.getD .null)])) :
    placeOfForm? record = some (path, receivedValue value) := by
  rcases shows.slots? ["path", "value"] (by simp) (by decide) with ⟨slot, slots, shown⟩
  have readPath : (slot "path").required? Datum.toText? = some path :=
    (shown "path").required? (Datum.sure_toText? path)
  have readValue : (slot "value").orElse? none (Datum.orNull? Datum.toJson?) =
      some (receivedValue value) :=
    (shown "value").orElse? (sure_receivedValue wellFormed)
  rw [placeOfForm?, slots]
  simp only [List.map_cons, List.map_nil, Option.bind_eq_bind, Option.bind_some, readPath,
    readValue]

theorem documentOfForm?_of_shows {record : Datum} {document : Json}
    (wellFormed : document.WellFormed)
    (shows : Datum.Shows record (.object [("document", document)])) :
    documentOfForm? record = some document := by
  rcases shows.slots? ["document"] (by simp) (by decide) with ⟨slot, slots, shown⟩
  have readDocument : (slot "document").required? Datum.toJson? = some document :=
    (shown "document").required? (Datum.sure_toJson? wellFormed)
  rw [documentOfForm?, slots]
  simp only [List.map_cons, List.map_nil, Option.bind_eq_bind, Option.bind_some, readDocument]

theorem ofFields?_of_shows {entry : Entry} (wellFormed : entry.WellFormed) {record : Datum}
    (shows : Datum.Shows record (.object entry.formFields)) :
    ofFields? entry.variant record = some entry.received := by
  cases entry with
  | set path value | change path value | arrayInsert path value | arrayAppend path value =>
      simp only [variant, ofFields?, placeOfForm?_of_shows wellFormed shows, Option.map_some,
        received]
  | patch document | merge document =>
      simp only [variant, ofFields?, documentOfForm?_of_shows wellFormed shows, Option.map_some,
        received]
  | unset paths =>
      rcases shows.slots? ["paths"] (distinct_formFields (.unset paths)).2 (by decide)
        with ⟨slot, slots, shown⟩
      have readPaths : (slot "paths").required? (Datum.toList? Datum.toText?) = some paths :=
        (shown "paths").required? (Datum.Sure.toList? fun path _ => Datum.sure_toText? path)
      simp only [variant, ofFields?, slots, List.map_cons, List.map_nil, Option.bind_eq_bind,
        Option.bind_some, readPaths, Option.map_some, received]
  | arrayDelete path position =>
      rcases shows.slots? ["path", "position"] (distinct_formFields (.arrayDelete path position)).2
        (by decide) with ⟨slot, slots, shown⟩
      have readPath : (slot "path").required? Datum.toText? = some path :=
        (shown "path").required? (Datum.sure_toText? path)
      have readPosition : (slot "position").required? Datum.toInt64? = some position :=
        (shown "position").required? (Datum.sure_toInt64? position)
      simp only [variant, ofFields?, slots, List.map_cons, List.map_nil, Option.bind_eq_bind,
        Option.bind_some, readPath, readPosition, received]

theorem sure_ofForm? {entry : Entry} (wellFormed : entry.WellFormed) :
    Datum.Sure ofForm? entry.toForm entry.received := by
  intro datum shows
  rw [toForm_eq] at shows
  rcases shows.untag? entry.distinct_formFields.1 with ⟨record, tagged, fields⟩
  rw [ofForm?, tagged]
  simp only [Option.bind_eq_bind, Option.bind_some, Datum.choice?, lookup_name,
    ofFields?_of_shows wellFormed fields]

/-- No name is repeated in the form of an entry. -/
theorem namesDistinct_toForm {entry : Entry} (wellFormed : entry.WellFormed) :
    entry.toForm.NamesDistinct := by
  cases entry with
  | set path value | change path value | arrayInsert path value | arrayAppend path value =>
      have document : (value.getD .null).NamesDistinct := by
        cases value with
        | none => trivial
        | some found => exact (wellFormed found rfl).namesDistinct
      exact ⟨by simp, trivial, trivial, document, trivial⟩
  | patch document | merge document => exact ⟨by simp, trivial, wellFormed.namesDistinct, trivial⟩
  | unset paths =>
      exact ⟨by simp, trivial, Json.namesDistinctItems_map fun _ _ => trivial, trivial⟩
  | arrayDelete path position => exact ⟨by simp, trivial, trivial, trivial, trivial⟩

end Entry

/-! ## Requests -/

/-- The values in the entries are documents. -/
def WellFormed (request : Request) : Prop :=
  forall entry, entry ∈ request.operations -> entry.WellFormed

/-- The request that is read where this one was written. -/
def received (request : Request) : Request :=
  { request with operations := request.operations.map Entry.received }

theorem nodup_names (request : Request) : (request.toForm.members.map Prod.fst).Nodup := by
  rcases request with ⟨_ | name, operations, _ | ⟨expression, rest⟩, _ | rows⟩
  all_goals simp [toForm, Json.members]

theorem fields_toForm (request : Request) :
    request.toForm.member? "collection" = request.collection.map .string ∧
    request.toForm.member? "operations" =
      some (.array (request.operations.map Entry.toForm)) ∧
    request.toForm.member? "sort" =
      (if request.sort.isEmpty then none else some (.array (request.sort.map .string))) ∧
    request.toForm.member? "limit" =
      request.limit.map fun rows => Json.number (.ofInt64 rows) := by
  rcases request with ⟨_ | name, operations, _ | ⟨expression, rest⟩, _ | rows⟩
  all_goals exact ⟨rfl, rfl, rfl, rfl⟩

theorem sure_ofForm? {request : Request} (wellFormed : request.WellFormed) :
    Datum.Sure ofForm? request.toForm request.received := by
  intro datum shows
  have shows : Datum.Shows datum (.object request.toForm.members) := shows
  rcases shows.slots? ["collection", "operations", "sort", "limit"] request.nodup_names
    (by decide) with ⟨slot, slots, shown⟩
  have shown : forall field, Datum.ShowsSlot (slot field) (request.toForm.member? field) := shown
  rcases request.fields_toForm with ⟨collection, operations, sort, limit⟩
  have readCollection :
      (slot "collection").orElse? none (Datum.orNull? Datum.toText?) = some request.collection :=
    (collection ▸ shown "collection").orElse?_orNull? (fun name _ => Datum.sure_toText? name)
      fun _ => rfl
  have readOperations : (slot "operations").required? (Datum.toList? Entry.ofForm?) =
      some (request.operations.map Entry.received) :=
    (operations ▸ shown "operations").required? (Datum.Sure.toList?_map fun entry listed =>
      Entry.sure_ofForm? (wellFormed entry listed))
  have readSort : (slot "sort").orElse? [] (Datum.toList? Datum.toText?) = some request.sort := by
    have present := shown "sort"
    rw [sort] at present
    cases list : request.sort with
    | nil =>
        rw [list] at present
        exact present.orElse?_missing
    | cons expression rest =>
        rw [list] at present
        exact present.orElse? (Datum.Sure.toList? fun other _ => Datum.sure_toText? other)
  have readLimit :
      (slot "limit").orElse? none (Datum.orNull? Datum.toInt64?) = some request.limit :=
    (limit ▸ shown "limit").orElse?_orNull? (fun rows _ => Datum.sure_toInt64? rows)
      fun _ => rfl
  rw [ofForm?, slots]
  simp only [List.map_cons, List.map_nil, Option.bind_eq_bind, Option.bind_some, readCollection,
    readOperations, readSort, readLimit, received]

/-- No name is repeated in the form of a request. -/
theorem namesDistinct_toForm {request : Request} (wellFormed : request.WellFormed) :
    request.toForm.NamesDistinct := by
  have operations : Json.NamesDistinctItems (request.operations.map Entry.toForm) :=
    Json.namesDistinctItems_map fun entry listed =>
      Entry.namesDistinct_toForm (wellFormed entry listed)
  have sort : Json.NamesDistinctItems (request.sort.map Json.string) :=
    Json.namesDistinctItems_map fun _ _ => trivial
  refine ⟨request.nodup_names, (Json.namesDistinctMembers_iff _).mpr ?_⟩
  rcases request with ⟨_ | name, listed, _ | ⟨expression, rest⟩, _ | rows⟩
  all_goals simp_all [Json.NamesDistinct]

end Request
end Emend
