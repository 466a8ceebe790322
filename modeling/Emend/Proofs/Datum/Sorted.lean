import Emend.Proofs.Datum.Shows

namespace Emend

/-!
# Sorted forms

The written forms of statements and messages have their members in an order of
their own, but no object in them has a name twice.  Such a value loses nothing when
it is brought into order: the datum of the sorted value still shows the value.
-/

namespace Json

/-! ## Names that are not repeated -/

mutual
/-- No object in the value has a name twice. -/
def NamesDistinct : Json -> Prop
  | .array items => NamesDistinctItems items
  | .object members => (members.map Prod.fst).Nodup ∧ NamesDistinctMembers members
  | .null | .bool _ | .number _ | .string _ => True

/-- `NamesDistinct` for each item of an array. -/
def NamesDistinctItems : List Json -> Prop
  | [] => True
  | item :: rest => NamesDistinct item ∧ NamesDistinctItems rest

/-- `NamesDistinct` for each value in a list of members. -/
def NamesDistinctMembers : List (String × Json) -> Prop
  | [] => True
  | (_, value) :: rest => NamesDistinct value ∧ NamesDistinctMembers rest
end

theorem namesDistinctItems_map {Value : Type} {form : Value -> Json} {values : List Value}
    (each : forall value, value ∈ values -> (form value).NamesDistinct) :
    NamesDistinctItems (values.map form) := by
  induction values with
  | nil => trivial
  | cons value rest ih =>
      have parts := List.forall_mem_cons.mp each
      exact ⟨parts.1, ih parts.2⟩

theorem namesDistinctMembers_iff (members : List (String × Json)) :
    NamesDistinctMembers members ↔ forall member, member ∈ members -> member.2.NamesDistinct := by
  induction members with
  | nil =>
      constructor
      · intro _ member listed
        cases listed
      · exact fun _ => trivial
  | cons member rest ih => rw [NamesDistinctMembers, ih, List.forall_mem_cons]

mutual
theorem WellFormed.namesDistinct : forall {value : Json}, value.WellFormed -> value.NamesDistinct
  | .null, _ | .bool _, _ | .number _, _ | .string _, _ => trivial
  | .array items, wellFormed => by
      rw [WellFormed] at wellFormed
      rw [NamesDistinct]
      exact WellFormedItems.namesDistinct wellFormed
  | .object members, wellFormed => by
      rw [WellFormed] at wellFormed
      rw [NamesDistinct]
      exact ⟨wellFormed.1.nodup, WellFormedMembers.namesDistinct wellFormed.2⟩

theorem WellFormedItems.namesDistinct : forall {items : List Json},
    WellFormedItems items -> NamesDistinctItems items
  | [], _ => trivial
  | _ :: _, wellFormed => by
      rw [WellFormedItems] at wellFormed
      exact ⟨wellFormed.1.namesDistinct, WellFormedItems.namesDistinct wellFormed.2⟩

theorem WellFormedMembers.namesDistinct : forall {members : List (String × Json)},
    WellFormedMembers members -> NamesDistinctMembers members
  | [], _ => trivial
  | (_, _) :: _, wellFormed => by
      rw [WellFormedMembers] at wellFormed
      exact ⟨wellFormed.1.namesDistinct, WellFormedMembers.namesDistinct wellFormed.2⟩
end

theorem names_sortedMembers (members : List (String × Json)) :
    (sortedMembers members).map Prod.fst = members.map Prod.fst := by
  induction members with
  | nil => rfl
  | cons member rest ih => rw [sortedMembers, List.map_cons, List.map_cons, ih]

end Json

namespace Datum

/-! ## Data of sorted values -/

theorem ofMembers_eq_map (members : List (String × Json)) :
    ofMembers members = members.map fun member => (.text member.1, ofJson member.2) := by
  induction members with
  | nil => rfl
  | cons member rest ih => rw [ofMembers, ih, List.map_cons]

mutual
theorem shows_sorted : forall {value : Json}, value.NamesDistinct ->
    Shows (ofJson value.sorted) value
  | .null, _ => .null
  | .bool value, _ => .bool value
  | .number (.integer value), _ => .integer value .onlyAside
  | .number (.float value), _ => .float value
  | .string value, _ => .text value
  | .array items, distinct => by
      rw [Json.NamesDistinct] at distinct
      rw [Json.sorted, ofJson]
      exact .list (showsItems_sorted distinct)
  | .object members, distinct => by
      rw [Json.NamesDistinct] at distinct
      have names : ((Json.sortedMembers members).map Prod.fst).Nodup := by
        rw [Json.names_sortedMembers]
        exact distinct.1
      rw [Json.sorted, ofJson]
      refine .map (showsMembers_sorted distinct.2) ?_
      rw [ofMembers_eq_map, ofMembers_eq_map]
      exact (Members.ofList_perm names).map _

theorem showsItems_sorted : forall {items : List Json}, Json.NamesDistinctItems items ->
    ShowsItems (ofItems (Json.sortedItems items)) items
  | [], _ => .nil
  | _ :: _, distinct => by
      rw [Json.NamesDistinctItems] at distinct
      exact .cons (shows_sorted distinct.1) (showsItems_sorted distinct.2)

theorem showsMembers_sorted : forall {members : List (String × Json)},
    Json.NamesDistinctMembers members ->
    ShowsMembers (ofMembers (Json.sortedMembers members)) members
  | [], _ => .nil
  | (name, _) :: _, distinct => by
      rw [Json.NamesDistinctMembers] at distinct
      exact .cons name (shows_sorted distinct.1) (showsMembers_sorted distinct.2)
end

end Datum
end Emend
