import Mathlib
import Emend.Execution
import Emend.Proofs.Datum.Text
import Emend.Proofs.Document.WellFormed
import Emend.Proofs.Request.Documents
import Emend.Proofs.Store.Updated

namespace Emend
namespace Store

/-!
# Saved stores

A store is saved as the indented text of its contents.  Its contents are a document if those
of the store that was loaded were, whatever request was carried out on it in between.  Such a
text gives back the store, except where the contents are nested deeper than readers go: the
writer has no limit, and an operation can put a value that just fits its request at a place
that just fits the data.
-/

/-! ## Contents -/

theorem collectionsOf_eq_ok_iff (members : List (String × Json)) :
    forall collections : Members (List Json), collectionsOf members = .ok collections ↔
      members = collections.map fun collection => (collection.1, Json.array collection.2) := by
  induction members with
  | nil =>
      intro collections
      cases collections with
      | nil => exact ⟨fun _ => rfl, fun _ => rfl⟩
      | cons collection rest =>
          constructor
          · intro made
            cases made
          · intro same
            cases same
  | cons member rest ih =>
      intro collections
      rcases member with ⟨name, value⟩
      cases value with
      | array documents =>
          rw [collectionsOf]
          constructor
          · intro made
            rcases Result.exists_of_bind_eq_ok made with ⟨others, further, same⟩
            cases same
            rw [List.map_cons, (ih others).mp further]
          · intro same
            cases collections with
            | nil => cases same
            | cons collection others =>
                rcases collection with ⟨other, stored⟩
                rw [List.map_cons] at same
                cases same
                rw [(ih others).mpr rfl]
                rfl
      | null | bool | number | string | object =>
          constructor
          · intro made
            cases made
          · intro same
            cases collections <;> cases same

/-- A store is loaded from its contents, and from nothing else. -/
theorem ofJson_eq_ok_iff {value : Json} {store : Store} :
    ofJson value = .ok store ↔ value = store.toJson := by
  cases value with
  | object members =>
      constructor
      · intro loaded
        rcases Result.exists_of_map_eq_ok loaded with ⟨collections, made, rfl⟩
        exact congrArg Json.object ((collectionsOf_eq_ok_iff members collections).mp made)
      · intro same
        have parts := (collectionsOf_eq_ok_iff members store.collections).mpr
          (Json.object.inj same)
        rw [ofJson, parts]
        rfl
  | null | bool | number | string | array =>
      constructor
      · intro loaded
        cases loaded
      · intro same
        cases same

/-- The contents of the store are a document. -/
def WellFormed (store : Store) : Prop :=
  store.toJson.WellFormed

theorem wellFormed_iff {store : Store} :
    store.WellFormed ↔ Members.Sorted store.collections ∧
      forall collection, collection ∈ store.collections ->
        forall document, document ∈ collection.2 -> document.WellFormed := by
  rw [WellFormed, toJson, Json.wellFormed_object_iff, Members.Sorted, List.pairwise_map,
    List.forall_mem_map]
  simp only [Json.wellFormed_array_iff]
  exact Iff.rfl

/-! ## Documents stay documents -/

section Update

variable {operations : List Operation}
  (values : forall operation, operation ∈ operations -> operation.WellFormed)

include values

theorem wellFormed_afterAll {document : Json} (wellFormed : document.WellFormed) :
    (afterAll operations document).WellFormed := by
  induction operations generalizing document with
  | nil => exact wellFormed
  | cons operation rest ih =>
      have parts := List.forall_mem_cons.mp values
      exact ih parts.2 (parts.1.apply wellFormed)

theorem wellFormed_updated {documents : List Json} (selected : List Nat)
    (wellFormed : forall document, document ∈ documents -> document.WellFormed) :
    forall document, document ∈ updated operations selected documents -> document.WellFormed := by
  intro document listed
  rcases List.mem_mapIdx.mp listed with ⟨position, inRange, rfl⟩
  have before := wellFormed _ (List.getElem_mem inRange)
  split
  · rw [settled]
    split
    · exact wellFormed_afterAll values before
    · exact before
  · exact before

end Update

theorem WellFormed.addCollection {store : Store} (wellFormed : store.WellFormed) (name : String)
    {documents : List Json}
    (each : forall document, document ∈ documents -> document.WellFormed) :
    (store.addCollection name documents).WellFormed := by
  rw [wellFormed_iff] at wellFormed ⊢
  refine ⟨wellFormed.1.insert name documents, ?_⟩
  intro collection listed
  rcases Members.mem_insert listed with same | old
  · rw [same]
    exact each
  · exact wellFormed.2 collection old

/-- An update whose values are documents keeps the documents of a store documents, also where
it is refused. -/
theorem WellFormed.answer {store : Store} (wellFormed : store.WellFormed) {update : Update}
    (values : update.WellFormed) : (store.answer update).2.WellFormed := by
  rcases reason_or_effect store update with
    ⟨refusal, reason⟩ | ⟨name, documents, selected, concerned, kept⟩
  · rw [answer_of_reason reason]
    exact wellFormed
  · rw [answer_of_kept concerned kept]
    apply wellFormed.addCollection
    apply wellFormed_updated values
    exact (wellFormed_iff.mp wellFormed).2 (name, documents)
      (Members.mem_of_get?_eq_some concerned.found)

/-! ## Saving and loading -/

/-- The text of a store whose contents are a document gives back the store exactly if it is not
nested too deep for readers. -/
theorem load_saved {store : Store} (wellFormed : store.WellFormed) :
    (Json.ofText? store.toJson.indented).map ofJson =
      if store.toJson.nesting ≤ Datum.nestingLimit then some (.ok store) else none := by
  rw [Json.ofText?_indented wellFormed]
  split
  · rw [Option.map_some, ofJson_eq_ok_iff.mpr rfl]
  · rfl

/-- What is saved after a request was carried out on a store that was loaded gives back the
store after the request, if it is not nested deeper than readers go.  If it is, it cannot be
read again. -/
theorem load_saved_of_execute {data text : String} {contents : Json} {store after : Store}
    {request : Request} {statement : Statement} {outcome : Outcome}
    (read : Json.ofText? data = some contents) (loaded : ofJson contents = .ok store)
    (requested : Request.ofText? text = some request)
    (built : request.toStatement = .ok statement)
    (succeeded : statement.execute submit store = (.ok outcome, after)) :
    (Json.ofText? after.toJson.indented).map ofJson =
      if after.toJson.nesting ≤ Datum.nestingLimit then some (.ok after) else none := by
  have before : store.WellFormed := by
    rw [WellFormed, ← ofJson_eq_ok_iff.mp loaded]
    exact Statement.wellFormed_ofText? read
  apply load_saved
  rw [Statement.execute] at succeeded
  split at succeeded
  · cases succeeded
  · next update compiled =>
      have kept := before.answer (Request.wellFormed_of_compile requested built compiled)
      rw [submit] at succeeded
      rw [← (Prod.mk.inj succeeded).2]
      exact kept

/-- Empty arrays, one in another. -/
def nestedArrays : Nat -> Json
  | 0 => .array []
  | levels + 1 => .array [nestedArrays levels]

/-- Two collections, one of them empty, and a document with one field in one field. -/
def fieldInField (value : Json) : Store :=
  ⟨[("c", [.object [("a", .object [("b", value)])]]), ("d", [])]⟩

/-- The request that sets the inner field to nested arrays. -/
def setNested (levels : Nat) : Request :=
  ⟨some "c", [.set "a.b" (some (nestedArrays levels))], [], none⟩

def setNestedStatement (levels : Nat) : Statement :=
  ⟨[.set ⟨[.field "a", .field "b"]⟩ (.ofJson (nestedArrays levels))], [], none, some "c"⟩

theorem ofText?_fieldInField :
    Json.ofText? (fieldInField .null).toJson.indented = some (fieldInField .null).toJson :=
  (Json.ofText?_indented (by decide)).trans (if_pos (by decide))

set_option maxRecDepth 4000 in
theorem ofForm?_setNested :
    Request.ofForm? (Datum.ofJson (setNested 122).toForm) = some (setNested 122) ∧
    Request.ofForm? (Datum.ofJson (setNested 123).toForm) = some (setNested 123) :=
  ⟨rfl, rfl⟩

theorem ofText?_setNested {levels : Nat}
    (reached : (setNested levels).toForm.nesting ≤ Datum.nestingLimit)
    (shown : Request.ofForm? (Datum.ofJson (setNested levels).toForm) = some (setNested levels)) :
    Request.ofText? (setNested levels).toForm.indented = some (setNested levels) := by
  rw [Request.ofText?, Datum.ofText?_indented_of_nesting_le reached, Option.bind_some, shown]

theorem toStatement_setNested (levels : Nat) :
    (setNested levels).toStatement = .ok (setNestedStatement levels) := by
  cases levels <;> cbv

theorem execute_setNested (levels : Nat) :
    (setNestedStatement levels).execute submit (fieldInField .null) =
      (.ok ⟨1, [], []⟩, fieldInField (nestedArrays levels)) := by
  cases levels <;> cbv

/-- In the request three levels stand around the arrays, and the limit is just kept.  In the
store it is four levels, and what is saved cannot be read again. -/
theorem not_load_saved_tooDeep :
    Json.ofText? (fieldInField .null).toJson.indented = some (fieldInField .null).toJson ∧
    ofJson (fieldInField .null).toJson = .ok (fieldInField .null) ∧
    Request.ofText? (setNested 123).toForm.indented = some (setNested 123) ∧
    (setNested 123).toStatement = .ok (setNestedStatement 123) ∧
    (setNestedStatement 123).execute submit (fieldInField .null) =
      (.ok ⟨1, [], []⟩, fieldInField (nestedArrays 123)) ∧
    Json.ofText? (fieldInField (nestedArrays 123)).toJson.indented = none := by
  have requested : Request.ofText? (setNested 123).toForm.indented = some (setNested 123) :=
    ofText?_setNested (by decide +kernel) ofForm?_setNested.2
  have wellFormed : (fieldInField (nestedArrays 123)).toJson.WellFormed := by decide +kernel
  have tooDeep : ¬ (fieldInField (nestedArrays 123)).toJson.nesting ≤ Datum.nestingLimit := by
    decide +kernel
  exact ⟨ofText?_fieldInField, ofJson_eq_ok_iff.mpr rfl, requested, toStatement_setNested 123,
    execute_setNested 123, (Json.ofText?_indented wellFormed).trans (if_neg tooDeep)⟩

/-- With one array less the store is read again. -/
theorem load_saved_of_setNested :
    (Json.ofText? (fieldInField (nestedArrays 122)).toJson.indented).map ofJson =
      some (.ok (fieldInField (nestedArrays 122))) := by
  have requested : Request.ofText? (setNested 122).toForm.indented = some (setNested 122) :=
    ofText?_setNested (by decide +kernel) ofForm?_setNested.1
  have within : (fieldInField (nestedArrays 122)).toJson.nesting ≤ Datum.nestingLimit := by
    decide +kernel
  rw [load_saved_of_execute ofText?_fieldInField (ofJson_eq_ok_iff.mpr rfl) requested
    (toStatement_setNested 122) (execute_setNested 122), if_pos within]

end Store
end Emend
