import Emend.Datum
import Emend.Proofs.Json.Members

namespace Emend
namespace Json

/-!
# Well-formed values

A value is well-formed when the members of every object in it are in strictly
increasing order.  All values that are read are so, from a text as from bytes,
because the members of an object are put in order as soon as it is complete.
-/

/-! ## Values by their members -/

theorem sizeOf_of_mem_members {value child : Json} {name : String}
    (listed : (name, child) ∈ value.members) : sizeOf child < sizeOf value := by
  cases value with
  | object members =>
      have inside : sizeOf (name, child) < sizeOf members := List.sizeOf_lt_of_mem listed
      rw [Prod.mk.sizeOf_spec] at inside
      rw [object.sizeOf_spec]
      omega
  | null => cases listed
  | bool value => cases listed
  | number value => cases listed
  | string value => cases listed
  | array items => cases listed

/-- Induction from the members of an object to the object. -/
theorem membersInduction {motive : Json -> Prop}
    (step : forall value : Json,
      (forall name child, (name, child) ∈ value.members -> motive child) -> motive value)
    (value : Json) : motive value :=
  step value fun _name child _listed => membersInduction step child
termination_by value
decreasing_by exact sizeOf_of_mem_members _listed

theorem wellFormedItems_iff (items : List Json) :
    WellFormedItems items ↔ forall item, item ∈ items -> item.WellFormed := by
  induction items with
  | nil =>
      constructor
      · intro _ item listed
        cases listed
      · intro _
        rw [WellFormedItems]
        trivial
  | cons item rest ih => rw [WellFormedItems, ih, List.forall_mem_cons]

theorem wellFormedMembers_iff (members : List (String × Json)) :
    WellFormedMembers members ↔ forall member, member ∈ members -> member.2.WellFormed := by
  induction members with
  | nil =>
      constructor
      · intro _ member listed
        cases listed
      · intro _
        rw [WellFormedMembers]
        trivial
  | cons member rest ih =>
      rcases member with ⟨name, value⟩
      rw [WellFormedMembers, ih, List.forall_mem_cons]

theorem wellFormed_object_iff (members : Members Json) :
    (object members).WellFormed ↔
      Members.Sorted members ∧ forall member, member ∈ members -> member.2.WellFormed := by
  rw [WellFormed, wellFormedMembers_iff]

mutual
/-- Whether a value is well-formed can be computed. -/
def decideWellFormed : (value : Json) -> Decidable value.WellFormed
  | .null | .bool _ | .number _ | .string _ => .isTrue trivial
  | .array items => decideWellFormedItems items
  | .object members => @instDecidableAnd _ _ inferInstance (decideWellFormedMembers members)

def decideWellFormedItems : (items : List Json) -> Decidable (WellFormedItems items)
  | [] => .isTrue trivial
  | item :: rest => @instDecidableAnd _ _ (decideWellFormed item) (decideWellFormedItems rest)

def decideWellFormedMembers : (members : List (String × Json)) ->
    Decidable (WellFormedMembers members)
  | [] => .isTrue trivial
  | (_, value) :: rest =>
      @instDecidableAnd _ _ (decideWellFormed value) (decideWellFormedMembers rest)
end

instance (value : Json) : Decidable value.WellFormed :=
  decideWellFormed value

/-- The members of a well-formed value, which may be none, are in order and
well-formed. -/
theorem WellFormed.members {value : Json} (wellFormed : value.WellFormed) :
    Members.Sorted value.members ∧
      forall member, member ∈ value.members -> member.2.WellFormed := by
  cases value with
  | object members => exact (wellFormed_object_iff members).mp wellFormed
  | null => exact ⟨Members.sorted_nil, fun _ listed => by cases listed⟩
  | bool value => exact ⟨Members.sorted_nil, fun _ listed => by cases listed⟩
  | number value => exact ⟨Members.sorted_nil, fun _ listed => by cases listed⟩
  | string value => exact ⟨Members.sorted_nil, fun _ listed => by cases listed⟩
  | array items => exact ⟨Members.sorted_nil, fun _ listed => by cases listed⟩

theorem WellFormed.of_member? {value child : Json} {name : String}
    (wellFormed : value.WellFormed) (found : value.member? name = some child) :
    child.WellFormed :=
  wellFormed.members.2 (name, child) (Members.mem_of_get?_eq_some found)

/-! ## Values that are read -/

/-- Collecting entries keeps what holds of all of them, and makes the order. -/
theorem foldl_insert_wellFormed (entries : List (String × Json)) :
    forall members : Members Json, (object members).WellFormed ->
      (forall entry, entry ∈ entries -> entry.2.WellFormed) ->
      (object (entries.foldl (fun members entry => Members.insert entry.1 entry.2 members)
        members)).WellFormed := by
  induction entries with
  | nil => exact fun members wellFormed _ => wellFormed
  | cons entry rest ih =>
      intro members wellFormed each
      have parts := List.forall_mem_cons.mp each
      have before := (wellFormed_object_iff members).mp wellFormed
      apply ih _ _ parts.2
      apply (wellFormed_object_iff _).mpr
      refine ⟨before.1.insert entry.1 entry.2, ?_⟩
      intro member listed
      rcases Members.mem_insert listed with same | old
      · rw [same]
        exact parts.1
      · exact before.2 member old

theorem wellFormed_ofList {entries : List (String × Json)}
    (each : WellFormedMembers entries) : (object (Members.ofList entries)).WellFormed := by
  have empty : (object []).WellFormed := (wellFormed_object_iff []).mpr
    ⟨Members.sorted_nil, fun _ listed => by cases listed⟩
  exact foldl_insert_wellFormed entries [] empty ((wellFormedMembers_iff entries).mp each)

end Json

namespace Datum

mutual
/-- Whatever a datum denotes is well-formed. -/
theorem wellFormed_of_toJson? (datum : Datum) (value : Json)
    (denoted : datum.toJson? = some value) : value.WellFormed := by
  cases datum with
  | list items =>
      rw [toJson?] at denoted
      rcases Option.map_eq_some_iff.mp denoted with ⟨values, read, same⟩
      rw [← same, Json.WellFormed]
      exact wellFormedItems_of_toItems? items values read
  | map entries =>
      rw [toJson?] at denoted
      split at denoted
      · rcases Option.map_eq_some_iff.mp denoted with ⟨members, read, same⟩
        rw [← same]
        exact Json.wellFormed_ofList (wellFormedMembers_of_toMembers? entries members read)
      · cases denoted
  | null => cases denoted; trivial
  | bool flag => cases denoted; trivial
  | integer number naming => cases denoted; trivial
  | float number => cases denoted; trivial
  | nonFinite => cases denoted; trivial
  | text content => cases denoted; trivial
  | bytes content listed => cases denoted
  | extension => cases denoted
  | unreadable => cases denoted

theorem wellFormedItems_of_toItems? (items : List Datum) (values : List Json)
    (denoted : toItems? items = some values) : Json.WellFormedItems values := by
  cases items with
  | nil => cases denoted; trivial
  | cons item rest =>
      rw [toItems?] at denoted
      rcases Option.bind_eq_some_iff.mp denoted with ⟨value, read, others⟩
      rcases Option.bind_eq_some_iff.mp others with ⟨values', readRest, same⟩
      cases same
      rw [Json.WellFormedItems]
      exact ⟨wellFormed_of_toJson? item value read,
        wellFormedItems_of_toItems? rest values' readRest⟩

theorem wellFormedMembers_of_toMembers? (entries : List (Datum × Datum))
    (members : List (String × Json)) (denoted : toMembers? entries = some members) :
    Json.WellFormedMembers members := by
  cases entries with
  | nil => cases denoted; trivial
  | cons entry rest =>
      rcases entry with ⟨key, datum⟩
      rw [toMembers?] at denoted
      rcases Option.bind_eq_some_iff.mp denoted with ⟨name, _, others⟩
      rcases Option.bind_eq_some_iff.mp others with ⟨value, read, more⟩
      rcases Option.bind_eq_some_iff.mp more with ⟨members', readRest, same⟩
      cases same
      rw [Json.WellFormedMembers]
      exact ⟨wellFormed_of_toJson? datum value read,
        wellFormedMembers_of_toMembers? rest members' readRest⟩
end

end Datum
end Emend
