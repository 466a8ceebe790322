import Emend.Proofs.Update.Form
import Emend.Wire.Message

namespace Emend

/-!
# Messages are read back

Failures, commands and replies are read from their forms.  There are two exceptions,
a command with payloads that are null and a success whose data are null: nothing tells
null from what is missing once they are read.
-/

/-! ## Failures -/

namespace Failure

theorem ofForm?_of_shows (aside : Bool) (failure : Failure) :
    Datum.Sure (ofForm? aside) failure.toForm failure := by
  intro datum shows
  cases failure with
  | messageTooLarge =>
      cases shows
      rfl
  | connection detail | protocol detail | database detail | auth detail | command detail
  | statement detail =>
      cases shows with
      | map named reordered =>
          cases named with
          | cons name first others =>
              cases first
              cases others
              rw [List.perm_singleton.mp reordered]
              rfl

end Failure

/-! ## Commands -/

namespace Command

/-- The values in the operations are documents. -/
def WellFormed : Command -> Prop
  | .modify _ update => update.WellFormed
  | .auth _ _ _ | .ping => True

/-- No payload in the operations is null. -/
def Normalised : Command -> Prop
  | .modify _ update => update.Normalised
  | .auth _ _ _ | .ping => True

/-- The command that is read where this one was written. -/
def received : Command -> Command
  | .modify database update => .modify database update.received
  | .auth database username password => .auth database username password
  | .ping => .ping

theorem received_of_normalised {command : Command} (normalised : command.Normalised) :
    command.received = command := by
  cases command with
  | modify database update => rw [received, Update.received_of_normalised normalised]
  | auth database username password => rfl
  | ping => rfl

theorem sure_ofForm? {command : Command} (wellFormed : command.WellFormed) :
    Datum.Sure ofForm? command.toForm command.received := by
  intro datum shows
  cases command with
  | auth database username password =>
      rcases shows.untag? (by simp) with ⟨record, tagged, fields⟩
      have chosen : Datum.choice? Variant.options (.text "auth") = some .auth := rfl
      rcases fields.slots? ["database", "username", "password"] (by simp) (by decide)
        with ⟨slot, slots, shown⟩
      have readDatabase : (slot "database").required? Datum.toText? = some database :=
        (shown "database").required? (Datum.sure_toText? database)
      have readUsername : (slot "username").required? Datum.toText? = some username :=
        (shown "username").required? (Datum.sure_toText? username)
      have readPassword : (slot "password").required? Datum.toText? = some password :=
        (shown "password").required? (Datum.sure_toText? password)
      rw [ofForm?, tagged]
      simp only [Option.bind_eq_bind, Option.bind_some, chosen, slots, List.map_cons,
        List.map_nil, readDatabase, readUsername, readPassword, received]
  | ping =>
      rcases shows.untag? (by simp) with ⟨record, tagged, fields⟩
      have chosen : Datum.choice? Variant.options (.text "ping") = some .ping := rfl
      have noFields : record.isEmptyRecord = true := by
        cases fields
        rfl
      rw [ofForm?, tagged]
      simp only [Option.bind_eq_bind, Option.bind_some, chosen, noFields, if_true, received]
  | modify database update =>
      rcases shows.untag? (by simp) with ⟨record, tagged, fields⟩
      have chosen : Datum.choice? Variant.options (.text "modify") = some .modify := rfl
      rcases fields.slots? ["database", "statement"] (by simp) (by decide)
        with ⟨slot, slots, shown⟩
      have readDatabase : (slot "database").required? Datum.toText? = some database :=
        (shown "database").required? (Datum.sure_toText? database)
      have readUpdate : (slot "statement").required? Update.ofForm? =
          some update.received :=
        (shown "statement").required? (Update.sure_ofForm? wellFormed)
      rw [ofForm?, tagged]
      simp only [Option.bind_eq_bind, Option.bind_some, chosen, slots, List.map_cons,
        List.map_nil, readDatabase, readUpdate, received]

end Command

/-! ## Replies -/

namespace Reply

/-- The data are a document, if there are any. -/
def WellFormed : Reply -> Prop
  | .ok (some data) _ _ => data.WellFormed
  | .ok none _ _ | .error _ | .pong _ => True

/-- The reply that is read where this one was written: data that are null become
missing. -/
def received : Reply -> Reply
  | .ok (some .null) count transaction => .ok none count transaction
  | other => other

/-- The data of a success, as they are received. -/
def receivedData : Option Json -> Option Json
  | some .null => none
  | other => other

theorem received_ok (data : Option Json) (count : Option UInt64) (transaction : Option String) :
    received (.ok data count transaction) = .ok (receivedData data) count transaction := by
  rcases data with _ | (_ | _ | _ | _ | _ | _) <;> rfl

theorem readData_of_shows {slot : Datum.Slot} {data : Option Json}
    (wellFormed : forall value, data = some value -> value.WellFormed)
    (shown : Datum.ShowsSlot slot data) :
    slot.orMissing? none (Datum.orNull? Datum.toJson?) = some (receivedData data) := by
  cases data with
  | none => exact shown.orMissing?_missing
  | some value =>
      have sure := Datum.sure_toJson? (wellFormed value rfl)
      cases value with
      | null => exact shown.orMissing? Datum.sure_orNull?_null
      | bool | number | string | array | object => exact shown.orMissing? (sure.orNull? rfl)

/-- The fields of a success, without its tag. -/
def successFields (data : Option Json) (count : Option UInt64) (transaction : Option String) :
    List (String × Json) :=
  (Reply.ok data count transaction).toForm.members.tail

theorem apart_successFields (data : Option Json) (count : Option UInt64)
    (transaction : Option String) :
    (forall field, field ∈ successFields data count transaction -> field.1 ≠ "status") ∧
      ((successFields data count transaction).map Prod.fst).Nodup := by
  cases data <;> cases count <;> cases transaction <;>
    simp [successFields, toForm, Json.members]

theorem get?_successFields (data : Option Json) (count : Option UInt64)
    (transaction : Option String) :
    Members.get? (successFields data count transaction) "data" = data ∧
    Members.get? (successFields data count transaction) "count" =
      count.map (fun count => .number (.ofUInt64 count)) ∧
    Members.get? (successFields data count transaction) "tx_id" = transaction.map .string := by
  cases data <;> cases count <;> cases transaction <;> exact ⟨rfl, rfl, rfl⟩

theorem sure_ofForm? {reply : Reply} (wellFormed : reply.WellFormed) :
    Datum.Sure ofForm? reply.toForm reply.received := by
  intro datum shows
  cases reply with
  | ok data count transaction =>
      rw [received_ok]
      have shows : Datum.Shows datum
        (.object (("status", .string "ok") :: successFields data count transaction)) := shows
      rcases apart_successFields data count transaction with ⟨apart, distinct⟩
      rcases shows.untag? apart with ⟨record, tagged, fields⟩
      have chosen : Datum.choice? Variant.options (.text "ok") = some .ok := rfl
      rcases fields.slots? ["data", "count", "tx_id"] distinct (by decide)
        with ⟨slot, slots, shown⟩
      rcases get?_successFields data count transaction with ⟨getData, getCount, getTransaction⟩
      have documents : forall value, data = some value -> value.WellFormed := by
        rintro value rfl
        exact wellFormed
      have readData := readData_of_shows documents (getData ▸ shown "data")
      have readCount :
          (slot "count").orMissing? none (Datum.orNull? Datum.toUInt64?) = some count :=
        (getCount ▸ shown "count").orMissing?_orNull? (fun count _ => Datum.sure_toUInt64? count)
          fun _ => rfl
      have readTransaction :
          (slot "tx_id").orMissing? none (Datum.orNull? Datum.toText?) = some transaction :=
        (getTransaction ▸ shown "tx_id").orMissing?_orNull?
          (fun name _ => Datum.sure_toText? name) fun _ => rfl
      rw [ofForm?, tagged]
      simp only [Option.bind_eq_bind, Option.bind_some, chosen, slots, List.map_cons,
        List.map_nil, readData, readCount, readTransaction]
  | error failure =>
      rcases shows.untag? (by simp) with ⟨record, tagged, fields⟩
      have chosen : Datum.choice? Variant.options (.text "error") = some .error := rfl
      rcases fields.slots? ["error"] (by simp) (by decide) with ⟨slot, slots, shown⟩
      have readFailure : (slot "error").required? (Failure.ofForm? true) = some failure :=
        (shown "error").required? (failure.ofForm?_of_shows true)
      rw [ofForm?, tagged]
      simp only [Option.bind_eq_bind, Option.bind_some, chosen, slots, List.map_cons,
        List.map_nil, readFailure, Option.map_some, received]
  | pong timestamp =>
      rcases shows.untag? (by simp) with ⟨record, tagged, fields⟩
      have chosen : Datum.choice? Variant.options (.text "pong") = some .pong := rfl
      rcases fields.slots? ["timestamp"] (by simp) (by decide) with ⟨slot, slots, shown⟩
      have readTimestamp : (slot "timestamp").required? Datum.toInt64? = some timestamp :=
        (shown "timestamp").required? (Datum.sure_toInt64? timestamp)
      rw [ofForm?, tagged]
      simp only [Option.bind_eq_bind, Option.bind_some, chosen, slots, List.map_cons,
        List.map_nil, readTimestamp, Option.map_some, received]

end Reply

end Emend
