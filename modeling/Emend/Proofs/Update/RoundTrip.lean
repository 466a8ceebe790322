import Mathlib
import Emend.Proofs.Datum.Sorted
import Emend.Proofs.Update.Form

namespace Emend

/-!
# Written and read again

An update is read back from its form, with the members of the form as they were
written as well as brought into order.  The form of an update that was itself read need
not be the form that it was read from: a record may have been a list, a path may have
been spelled otherwise, payloads and fields may have been left out.  But whatever an
update was read from, the values in it are documents and its payloads are normalised,
and that is all that reading back asks for.
-/

/-! ## What is read -/

theorem Payload.wellFormed_normalised_of_ofForm? {datum : Datum} {payload : Payload}
    (read : Payload.ofForm? datum = some payload) :
    payload.toJson.WellFormed ∧ payload.Normalised := by
  rcases Option.map_eq_some_iff.mp read with ⟨value, denoted, rfl⟩
  exact ⟨wellFormed_ofJson (Datum.wellFormed_of_toJson? datum value denoted),
    normalised_ofJson value⟩

namespace Operation

theorem wellFormed_of_membersOfForm? {datum : Datum} {document : Members Json}
    (read : membersOfForm? datum = some document) : (Json.object document).WellFormed := by
  cases datum with
  | map entries =>
      rcases Option.map_eq_some_iff.mp read with ⟨members, denoted, rfl⟩
      exact Json.wellFormed_ofList (Datum.wellFormedMembers_of_toMembers? entries members denoted)
  | null | bool | integer | float | nonFinite | text | bytes | list | extension | unreadable =>
      cases read

theorem wellFormed_normalised_of_placeOfForm? {record : Datum} {path : Path} {value : Payload}
    (read : placeOfForm? record = some (path, value)) :
    value.toJson.WellFormed ∧ value.Normalised := by
  rcases Option.bind_eq_some_iff.mp read with ⟨slots, _, fields⟩
  split at fields
  · rcases Option.bind_eq_some_iff.mp fields with ⟨_, _, behindPath⟩
    rcases Option.bind_eq_some_iff.mp behindPath with ⟨payload, readValue, same⟩
    cases same
    rcases Datum.Slot.eq_default_of_orElse? readValue with rfl | ⟨datum, given⟩
    · exact ⟨trivial, trivial⟩
    · exact Payload.wellFormed_normalised_of_ofForm? given
  · cases fields

theorem wellFormed_normalised_of_ofFields? {kind : Kind} {record : Datum} {operation : Operation}
    (read : ofFields? kind record = some operation) :
    operation.WellFormed ∧ operation.Normalised := by
  cases kind with
  | set | change | arrayInsert | arrayAppend =>
      rcases Option.map_eq_some_iff.mp read with ⟨place, readPlace, rfl⟩
      exact wellFormed_normalised_of_placeOfForm? readPlace
  | unset =>
      rcases Option.bind_eq_some_iff.mp read with ⟨slots, _, fields⟩
      split at fields
      · rcases Option.map_eq_some_iff.mp fields with ⟨path, _, rfl⟩
        exact ⟨trivial, trivial⟩
      · cases fields
  | patch =>
      rcases Option.bind_eq_some_iff.mp read with ⟨slots, _, fields⟩
      split at fields
      · rcases Option.map_eq_some_iff.mp fields with ⟨document, readDocument, rfl⟩
        rcases Datum.Slot.exists_of_required? readDocument with ⟨datum, given⟩
        exact ⟨wellFormed_of_membersOfForm? given, trivial⟩
      · cases fields

theorem wellFormed_normalised_of_ofForm? {datum : Datum} {operation : Operation}
    (read : ofForm? datum = some operation) : operation.WellFormed ∧ operation.Normalised := by
  rcases Option.bind_eq_some_iff.mp read with ⟨⟨tag, record⟩, _, behindTag⟩
  rcases Option.bind_eq_some_iff.mp behindTag with ⟨kind, _, fields⟩
  exact wellFormed_normalised_of_ofFields? fields

/-- No name is repeated in the form of an operation. -/
theorem namesDistinct_toForm {operation : Operation} (wellFormed : operation.WellFormed) :
    operation.toForm.NamesDistinct := by
  cases operation with
  | set path value | change path value | arrayInsert path value | arrayAppend path value =>
      exact ⟨by simp, trivial, trivial, wellFormed.namesDistinct, trivial⟩
  | unset path => exact ⟨by simp, trivial, trivial, trivial⟩
  | patch document => exact ⟨by simp, trivial, wellFormed.namesDistinct, trivial⟩

end Operation

theorem Note.namesDistinct_toForm (note : Note) : note.toForm.NamesDistinct := by
  cases note <;> exact ⟨by simp, trivial, trivial, trivial, trivial, trivial⟩

namespace Update

theorem wellFormed_normalised_of_ofForm? {datum : Datum} {update : Update}
    (read : ofForm? datum = some update) : update.WellFormed ∧ update.Normalised := by
  rcases Option.bind_eq_some_iff.mp read with ⟨slots, _, fields⟩
  split at fields
  · rcases Option.bind_eq_some_iff.mp fields with ⟨_, _, behindCollection⟩
    rcases Option.bind_eq_some_iff.mp behindCollection with ⟨operations, given, behindOperations⟩
    rcases Option.bind_eq_some_iff.mp behindOperations with ⟨_, _, behindSort⟩
    rcases Option.bind_eq_some_iff.mp behindSort with ⟨_, _, behindLimit⟩
    rcases Option.bind_eq_some_iff.mp behindLimit with ⟨_, _, same⟩
    cases same
    rcases Datum.Slot.exists_of_required? given with ⟨list, readList⟩
    rcases Option.bind_eq_some_iff.mp readList with ⟨items, _, readItems⟩
    have readable : forall operation, operation ∈ operations ->
        operation.WellFormed ∧ operation.Normalised := by
      intro operation listed
      rcases Datum.exists_of_mem_mapM readItems operation listed with ⟨item, readItem⟩
      exact Operation.wellFormed_normalised_of_ofForm? readItem
    exact ⟨fun operation listed => (readable operation listed).1,
      fun operation listed => (readable operation listed).2⟩
  · cases fields

/-- No name is repeated in the form of an update. -/
theorem namesDistinct_toForm {update : Update} (wellFormed : update.WellFormed) :
    update.toForm.NamesDistinct := by
  have operations : Json.NamesDistinctItems (update.operations.map Operation.toForm) :=
    Json.namesDistinctItems_map fun operation listed =>
      Operation.namesDistinct_toForm (wellFormed operation listed)
  have sort : Json.NamesDistinctItems (update.sort.map Json.string) :=
    Json.namesDistinctItems_map fun _ _ => trivial
  have notes : Json.NamesDistinctItems (update.notes.map Note.toForm) :=
    Json.namesDistinctItems_map fun note _ => note.namesDistinct_toForm
  refine ⟨update.nodup_names, (Json.namesDistinctMembers_iff _).mpr ?_⟩
  rcases update with ⟨_ | name, listed, expressions, _ | rows, _ | ⟨note, rest⟩⟩
  all_goals simp_all [Json.NamesDistinct]

/-- The update is read back from its form, with the members of the form as they were written
and with the members in order. -/
def ReadBack (update : Update) : Prop :=
  ofForm? (Datum.ofJson update.toForm) = some update ∧
    ofForm? (Datum.ofJson update.toForm.sorted) = some update

theorem readBack_of_normalised {update : Update} (wellFormed : update.WellFormed)
    (normalised : update.Normalised) : update.ReadBack := by
  have sure := sure_ofForm? wellFormed
  rw [received_of_normalised normalised] at sure
  have names := namesDistinct_toForm wellFormed
  exact ⟨sure _ (Datum.shows_ofJson _), sure _ (Datum.shows_sorted names)⟩

/-- Every update whose values are documents and whose payloads are normalised is read back
from its form, and so is every update that was itself read, whatever the shape of the datum
that it was read from. -/
theorem readBack_of_read :
    (forall update : Update, update.WellFormed -> update.Normalised -> update.ReadBack) ∧
    forall (datum : Datum) (update : Update), ofForm? datum = some update -> update.ReadBack := by
  constructor
  · exact fun _ wellFormed normalised => readBack_of_normalised wellFormed normalised
  · intro datum update read
    rcases wellFormed_normalised_of_ofForm? read with ⟨wellFormed, normalised⟩
    exact readBack_of_normalised wellFormed normalised

/-- An update that no store would apply, with every field given. -/
def allFields : Update :=
  ⟨some "", [.arrayAppend .root .absent, .patch [("a", .null), ("b", .object [])],
      .change ⟨[.field "\x60", .index 4294967295]⟩ (.ofArray [.null, .number (.ofInt64 (-1))])],
    ["x y z"], some 18446744073709551615,
    [.overrides 3 0 ⟨[.field "."]⟩, .restoresPatchedNull 2 1 .root]⟩

/-- An update as a list of two fields, with an operation as a list that leaves the payload
out and spells the path in a way of its own. -/
def listForm : Datum :=
  Datum.ofJson (.array [.null, .array [.array [.string "set", .string "a[00].\x60b\x60"]]])

theorem readBack_allFields :
    allFields.WellFormed ∧ allFields.Normalised ∧ allFields.ReadBack ∧
    ofForm? listForm =
      some ⟨none, [.set ⟨[.field "a", .index 0, .field "b"]⟩ .absent], [], none, []⟩ ∧
    ReadBack ⟨none, [.set ⟨[.field "a", .index 0, .field "b"]⟩ .absent], [], none, []⟩ := by
  have wellFormed : allFields.WellFormed := by
    intro operation listed
    rcases List.mem_cons.mp listed with rfl | behind
    · trivial
    rcases List.mem_cons.mp behind with rfl | last
    · change Json.WellFormed _
      decide
    · rcases List.mem_singleton.mp last with rfl
      change Json.WellFormed _
      decide
  have normalised : allFields.Normalised := by
    intro operation listed
    rcases List.mem_cons.mp listed with rfl | behind
    · trivial
    rcases List.mem_cons.mp behind with rfl | last
    · trivial
    · rcases List.mem_singleton.mp last with rfl
      rfl
  have read : ofForm? listForm =
      some ⟨none, [.set ⟨[.field "a", .index 0, .field "b"]⟩ .absent], [], none, []⟩ := by
    cbv
  exact ⟨wellFormed, normalised, readBack_of_read.1 allFields wellFormed normalised, read,
    readBack_of_read.2 listForm _ read⟩

end Update
end Emend
