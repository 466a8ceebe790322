import Emend.Proofs.Operation.Form
import Emend.Update.Form

namespace Emend

/-!
# Updates are read back

A note is read from its form as it is, and so is an update if the values in its
operations are documents and its payloads are normalised; otherwise the payloads that
are null come back as absent ones.  Nothing is asked of the update besides: it may have
no operations, or such as no store could apply, and any sort expressions.
-/

/-! ## Notes -/

namespace Note

/-- The fields of a note, without its tag. -/
def noteFields (other : String) (index second : UInt64) (path : Path) : List (String × Json) :=
  [("index", .number (.ofUInt64 index)), (other, .number (.ofUInt64 second)),
    ("path", .string path.write)]

theorem fieldsOfForm?_of_shows {other : String} {index second : UInt64} {path : Path}
    {record : Datum} (distinct : ["index", other, "path"].Nodup)
    (shows : Datum.Shows record (.object (noteFields other index second path))) :
    fieldsOfForm? other record = some (index, second, path) := by
  rcases shows.slots? ["index", other, "path"] distinct distinct with ⟨slot, slots, shown⟩
  have readIndex : (slot "index").required? Datum.toUInt64? = some index :=
    (shown "index").required? (Datum.sure_toUInt64? index)
  have otherIndex : other ≠ "index" := by
    intro same
    rw [same] at distinct
    exact absurd distinct (by decide)
  have pathIndex : "path" ≠ other := by
    intro same
    rw [← same] at distinct
    exact absurd distinct (by decide)
  have readOther : (slot other).required? Datum.toUInt64? = some second := by
    have present := shown other
    rw [noteFields, Members.get?_cons_of_ne otherIndex, Members.get?_cons_same] at present
    exact present.required? (Datum.sure_toUInt64? second)
  have readPath : (slot "path").required? Path.ofForm? = some path := by
    have present := shown "path"
    rw [noteFields, Members.get?_cons_of_ne (by decide), Members.get?_cons_of_ne pathIndex,
      Members.get?_cons_same] at present
    exact present.required? path.sure_ofForm?
  rw [fieldsOfForm?, slots]
  simp only [List.map_cons, List.map_nil, Option.bind_eq_bind, Option.bind_some, readIndex,
    readOther, readPath]

theorem sure_ofForm? (note : Note) : Datum.Sure ofForm? note.toForm note := by
  intro datum shows
  cases note with
  | overrides index earlier path =>
      rcases shows.untag? (by simp) with ⟨record, tagged, fields⟩
      have chosen : Datum.choice? Variant.options (.text "overrides") = some .overrides := rfl
      have read : fieldsOfForm? "earlier" record = some (index, earlier, path) :=
        fieldsOfForm?_of_shows (by decide) fields
      rw [ofForm?, tagged]
      simp only [Option.bind_eq_bind, Option.bind_some, chosen, read]
  | restoresPatchedNull index patchIndex path =>
      rcases shows.untag? (by simp) with ⟨record, tagged, fields⟩
      have chosen : Datum.choice? Variant.options (.text "restores_patched_null") =
          some .restoresPatchedNull := rfl
      have read : fieldsOfForm? "patch_index" record = some (index, patchIndex, path) :=
        fieldsOfForm?_of_shows (by decide) fields
      rw [ofForm?, tagged]
      simp only [Option.bind_eq_bind, Option.bind_some, chosen, read]

end Note

/-! ## Updates -/

namespace Update

/-- The values in the operations are documents. -/
def WellFormed (update : Update) : Prop :=
  forall operation, operation ∈ update.operations -> operation.WellFormed

/-- No payload in the operations is null. -/
def Normalised (update : Update) : Prop :=
  forall operation, operation ∈ update.operations -> operation.Normalised

/-- The update that is read where this one was written. -/
def received (update : Update) : Update :=
  { update with operations := update.operations.map Operation.received }

theorem received_of_normalised {update : Update} (normalised : update.Normalised) :
    update.received = update := by
  have same : update.operations.map Operation.received = update.operations :=
    (List.map_congr_left fun operation listed =>
      Operation.received_of_normalised (normalised operation listed)).trans (List.map_id' _)
  rw [received, same]

theorem nodup_names (update : Update) : (update.toForm.members.map Prod.fst).Nodup := by
  rcases update with ⟨_ | name, operations, sort, limit, _ | ⟨note, notes⟩⟩
  all_goals simp [toForm, Json.members]

theorem fields_toForm (update : Update) :
    update.toForm.member? "collection" = update.collection.map .string ∧
    update.toForm.member? "operations" =
      some (.array (update.operations.map Operation.toForm)) ∧
    update.toForm.member? "sort" = some (.array (update.sort.map .string)) ∧
    update.toForm.member? "limit" =
      some ((update.limit.map fun rows => Json.number (.ofUInt64 rows)).getD .null) ∧
    update.toForm.member? "notes" =
      if update.notes.isEmpty then none else some (.array (update.notes.map Note.toForm)) := by
  rcases update with ⟨_ | name, operations, sort, limit, _ | ⟨note, notes⟩⟩
  all_goals exact ⟨rfl, rfl, rfl, rfl, rfl⟩

theorem sure_ofForm? {update : Update} (wellFormed : update.WellFormed) :
    Datum.Sure ofForm? update.toForm update.received := by
  intro datum shows
  have shows : Datum.Shows datum (.object update.toForm.members) := shows
  rcases shows.slots? ["collection", "operations", "sort", "limit", "notes"]
    update.nodup_names (by decide) with ⟨slot, slots, shown⟩
  have shown : forall field, Datum.ShowsSlot (slot field) (update.toForm.member? field) := shown
  rcases update.fields_toForm with ⟨collection, operations, sort, limit, notes⟩
  have readCollection :
      (slot "collection").orElse? none (Datum.orNull? Datum.toText?) = some update.collection :=
    (collection ▸ shown "collection").orElse?_orNull? (fun name _ => Datum.sure_toText? name)
      fun _ => rfl
  have readOperations : (slot "operations").required? (Datum.toList? Operation.ofForm?) =
      some (update.operations.map Operation.received) :=
    (operations ▸ shown "operations").required? (Datum.Sure.toList?_map fun operation listed =>
      Operation.sure_ofForm? (wellFormed operation listed))
  have readSort : (slot "sort").orElse? [] (Datum.toList? Datum.toText?) = some update.sort :=
    (sort ▸ shown "sort").orElse? (Datum.Sure.toList? fun expression _ =>
      Datum.sure_toText? expression)
  have readLimit :
      (slot "limit").orElse? none (Datum.orNull? Datum.toUInt64?) = some update.limit :=
    (limit ▸ shown "limit").orElse? (Datum.sure_orNull?_getD
      (fun rows _ => Datum.sure_toUInt64? rows) fun _ => rfl)
  have readNotes : (slot "notes").orElse? [] (Datum.toList? Note.ofForm?) = some update.notes := by
    have present := shown "notes"
    rw [notes] at present
    cases list : update.notes with
    | nil =>
        rw [list] at present
        exact present.orElse?_missing
    | cons note rest =>
        rw [list] at present
        exact present.orElse? (Datum.Sure.toList? fun other _ => Note.sure_ofForm? other)
  rw [ofForm?, slots]
  simp only [List.map_cons, List.map_nil, Option.bind_eq_bind, Option.bind_some, readCollection,
    readOperations, readSort, readLimit, readNotes, received]

end Update
end Emend
