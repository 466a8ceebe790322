import Emend.Operation.Form
import Emend.Proofs.Datum.Record
import Emend.Proofs.Path.Reader

namespace Emend

/-!
# Operations are read back

An operation is read from its form, whatever datum shows the form, if the values
that come with it are documents: a document is put in order when it is read, so
it has to be in order to stay as it is.  What is read need not be the operation that
was written, since a payload that is null is written like an absent one and is read as
absent.  Only payloads that are normalised come back as they were; all that is read is
normalised, and so is whatever is made of a JSON value.
-/

/-! ## Paths and payloads -/

namespace Path

theorem sure_ofForm? (path : Path) : Datum.Sure ofForm? (.string path.write) path := by
  intro datum shows
  rw [ofForm?, Datum.sure_toText? path.write datum shows, Option.bind_some, read_write]
  rfl

end Path

namespace Payload

/-- A null does not stand in the payload as a value of its own. -/
def Normalised : Payload -> Prop
  | .absent => True
  | .present value => value.isNull = false

/-- The payload that is read where this one was written: null becomes absent. -/
def received (payload : Payload) : Payload :=
  ofJson payload.toJson

theorem received_of_normalised {payload : Payload} (normalised : payload.Normalised) :
    payload.received = payload := by
  cases payload with
  | absent => rfl
  | present value =>
      have notNull : ¬ value.isNull = true := Bool.eq_false_iff.mp normalised
      exact if_neg notNull

theorem normalised_ofJson (value : Json) : (ofJson value).Normalised := by
  rw [ofJson]
  split
  · trivial
  · next notNull => exact Bool.eq_false_iff.mpr notNull

theorem wellFormed_ofJson {value : Json} (wellFormed : value.WellFormed) :
    (ofJson value).toJson.WellFormed := by
  rw [ofJson]
  split
  · trivial
  · exact wellFormed

theorem sure_ofForm? {payload : Payload} (wellFormed : payload.toJson.WellFormed) :
    Datum.Sure ofForm? payload.toJson payload.received := by
  intro datum shows
  rw [ofForm?, shows.toJson? wellFormed, Option.map_some, received]

end Payload

namespace Operation

/-! ## Operations -/

/-- The values that come with the operation are documents. -/
def WellFormed : Operation -> Prop
  | .set _ value | .change _ value | .arrayInsert _ value | .arrayAppend _ value =>
      value.toJson.WellFormed
  | .unset _ => True
  | .patch document => (Json.object document).WellFormed

/-- No payload of the operation is null.  A patch has none; it may hold as many nulls as it
likes, and each of them removes something. -/
def Normalised : Operation -> Prop
  | .set _ value | .change _ value | .arrayInsert _ value | .arrayAppend _ value =>
      value.Normalised
  | .unset _ | .patch _ => True

/-- The operation that is read where this one was written. -/
def received : Operation -> Operation
  | .set path value => .set path value.received
  | .change path value => .change path value.received
  | .arrayInsert path value => .arrayInsert path value.received
  | .arrayAppend path value => .arrayAppend path value.received
  | .unset path => .unset path
  | .patch document => .patch document

theorem received_of_normalised {operation : Operation} (normalised : operation.Normalised) :
    operation.received = operation := by
  cases operation with
  | set path value | change path value | arrayInsert path value | arrayAppend path value =>
      rw [received, Payload.received_of_normalised normalised]
  | unset path | patch document => rfl

theorem lookup_name (kind : Kind) : Kind.options.lookup kind.name = some kind := by
  cases kind <;> decide

theorem placeOfForm?_of_shows {record : Datum} {path : Path} {value : Payload}
    (wellFormed : value.toJson.WellFormed)
    (shows : Datum.Shows record
      (.object [("path", .string path.write), ("value", value.toJson)])) :
    placeOfForm? record = some (path, value.received) := by
  rcases shows.slots? ["path", "value"] (by simp) (by decide)
    with ⟨slot, slots, shown⟩
  have readPath : (slot "path").required? Path.ofForm? = some path :=
    (shown "path").required? path.sure_ofForm?
  have readValue : (slot "value").orElse? .absent Payload.ofForm? = some value.received :=
    (shown "value").orElse? (Payload.sure_ofForm? wellFormed)
  rw [placeOfForm?, slots]
  simp only [List.map_cons, List.map_nil, Option.bind_eq_bind, Option.bind_some, readPath,
    readValue]

theorem membersOfForm?_of_shows {document : Members Json}
    (wellFormed : (Json.object document).WellFormed) :
    Datum.Sure membersOfForm? (.object document) document := by
  intro datum shows
  rw [Json.WellFormed] at wellFormed
  cases shows with
  | map named reordered =>
      rcases Datum.exists_toMembers?_of_perm reordered (named.toMembers? wellFormed.2) with
        ⟨others, read, again⟩
      rw [membersOfForm?, read, Option.map_some, Members.ofList_of_perm again wellFormed.1]

/-- The fields of an operation, without its tag. -/
def formFields (operation : Operation) : List (String × Json) :=
  operation.toForm.members.tail

theorem toForm_eq (operation : Operation) :
    operation.toForm = .object (("op", .string operation.kind.name) :: operation.formFields) := by
  cases operation <;> rfl

theorem ofFields?_of_shows {operation : Operation} (wellFormed : operation.WellFormed)
    {record : Datum} (shows : Datum.Shows record (.object operation.formFields)) :
    ofFields? operation.kind record = some operation.received := by
  cases operation with
  | set path value | change path value | arrayInsert path value | arrayAppend path value =>
      simp only [kind, ofFields?, placeOfForm?_of_shows wellFormed shows, Option.map_some, received]
  | unset path =>
      rcases shows.slots? ["path"] (by simp [formFields, toForm, Json.members]) (by decide)
        with ⟨slot, slots, shown⟩
      have readPath : (slot "path").required? Path.ofForm? = some path :=
        (shown "path").required? path.sure_ofForm?
      simp only [kind, ofFields?, slots, List.map_cons, List.map_nil, Option.bind_eq_bind,
        Option.bind_some, readPath, Option.map_some, received]
  | patch document =>
      rcases shows.slots? ["document"] (by simp [formFields, toForm, Json.members]) (by decide)
        with ⟨slot, slots, shown⟩
      have readDocument : (slot "document").required? membersOfForm? = some document :=
        (shown "document").required? (membersOfForm?_of_shows wellFormed)
      simp only [kind, ofFields?, slots, List.map_cons, List.map_nil, Option.bind_eq_bind,
        Option.bind_some, readDocument, Option.map_some, received]

theorem sure_ofForm? {operation : Operation} (wellFormed : operation.WellFormed) :
    Datum.Sure ofForm? operation.toForm operation.received := by
  intro datum shows
  rw [toForm_eq] at shows
  have apart : forall member, member ∈ operation.formFields -> member.1 ≠ "op" := by
    cases operation <;> simp [formFields, toForm, Json.members]
  rcases shows.untag? apart with ⟨record, tagged, fields⟩
  rw [ofForm?, tagged]
  simp only [Option.bind_eq_bind, Option.bind_some, Datum.choice?, lookup_name,
    ofFields?_of_shows wellFormed fields]

end Operation
end Emend
