import Mathlib.Data.List.Basic
import Emend.Operation.Effect
import Emend.Proofs.Document.Overwrite

namespace Emend

/-!
# Operations on separate members

Two paths part at an object when they go the same way up to it and then on to members
of different names.  Operations at such paths do not notice each other.  Whatever an
operation does at the end of its path, seen from the object where the paths part it is
a change of one member, which asks for no other member and touches no other.  Two such
changes commute, and so do changes of the same child that commute in it.
-/

/-! ## One member of an object -/

namespace Members

variable {Value : Type}

/-- Members in which the name has the value, or is missing if there is none. -/
def assign (name : String) (value : Option Value) (members : Members Value) : Members Value :=
  match value with
  | some value => insert name value members
  | none => erase name members

theorem get?_assign (name other : String) (value : Option Value) (members : Members Value) :
    get? (assign other value members) name = if name = other then value else get? members name := by
  cases value with
  | some value => exact get?_insert name other value members
  | none => exact get?_erase name other members

theorem Sorted.assign {members : Members Value} (sorted : Sorted members) (name : String)
    (value : Option Value) : Sorted (members.assign name value) := by
  cases value with
  | some value => exact sorted.insert name value
  | none => exact sorted.erase name

/-- What a name has already changes nothing. -/
theorem assign_get? {members : Members Value} (sorted : Sorted members) (name : String) :
    assign name (get? members name) members = members := by
  cases found : get? members name with
  | none => exact erase_of_get? found
  | some value => exact insert_of_get? sorted found

theorem assign_comm {members : Members Value} (sorted : Sorted members) {left right : String}
    (different : left ≠ right) (first second : Option Value) :
    assign right second (assign left first members) =
      assign left first (assign right second members) := by
  apply eq_of_get?_eq ((sorted.assign left first).assign right second)
    ((sorted.assign right second).assign left first)
  intro wanted
  rw [get?_assign, get?_assign, get?_assign, get?_assign]
  by_cases isRight : wanted = right
  · rw [if_pos isRight, if_neg (fun isLeft => different (isLeft.symm.trans isRight)),
      if_pos isRight]
  · rw [if_neg isRight, if_neg isRight]

end Members

namespace Json

/-- A change of one member of an object.  It is told the value of the member, or that there
is none, and gives the new one, or that there is to be none, unless it misses.  There is
no member in a value that is not an object. -/
def atMember (name : String) (change : Option Json -> Option (Option Json)) :
    Json -> Option Json
  | .object members =>
      (change (Members.get? members name)).map fun new => .object (Members.assign name new members)
  | _ => none

theorem put?_field (container : Json) (name : String) (value : Json) :
    container.put? (.field name) value = atMember name (fun _ => some (some value)) container := by
  cases container <;> rfl

theorem drop?_field (container : Json) (name : String) :
    container.drop? (.field name) = atMember name (fun old => old.map fun _ => none) container := by
  cases container with
  | object members =>
      rw [drop?, atMember]
      cases Members.get? members name <;> rfl
  | null | bool | number | string | array => rfl

theorem squeeze?_field (container : Json) (name : String) (value : Json) :
    container.squeeze? (.field name) value = atMember name (fun _ => none) container := by
  cases container <;> rfl

theorem changeChild?_field (name : String) (change : Json -> Option Json) (container : Json) :
    changeChild? (.field name) change container =
      atMember name (fun old => (old.bind change).map some) container := by
  cases container with
  | object members =>
      rw [changeChild?, atMember, child?]
      cases Members.get? members name with
      | none => rfl
      | some child =>
          rw [Option.bind_some, Option.bind_some, Option.map_map]
          rfl
  | null | bool | number | string | array => rfl

/-! ## Changes that commute -/

/-- Two changes make the same of a value in either order, and each one hits or misses
whether or not the other one came before it. -/
structure Commute (first second : Json -> Option Json) (value : Json) : Prop where
  same : (second ((first value).getD value)).getD ((first value).getD value) =
    (first ((second value).getD value)).getD ((second value).getD value)
  firstHits : (first ((second value).getD value)).isSome = (first value).isSome
  secondHits : (second ((first value).getD value)).isSome = (second value).isSome

variable {first second : Json -> Option Json}

/-- A change of one member finds what it asks for whatever another member has become. -/
theorem atMember_assign {name other : String} (different : name ≠ other)
    (change : Option Json -> Option (Option Json)) (new : Option Json) (members : Members Json) :
    atMember name change (.object (Members.assign other new members)) =
      (change (Members.get? members name)).map fun own =>
        .object (Members.assign name own (Members.assign other new members)) := by
  rw [atMember, Members.get?_assign, if_neg different]

theorem commute_atMember {left right : String} (different : left ≠ right)
    (leftChange rightChange : Option Json -> Option (Option Json)) {value : Json}
    (wellFormed : value.WellFormed) :
    Commute (atMember left leftChange) (atMember right rightChange) value := by
  cases value with
  | object members =>
      have sorted := ((wellFormed_object_iff members).mp wellFormed).1
      have leftHere : atMember left leftChange (.object members) =
          (leftChange (Members.get? members left)).map fun new =>
            .object (Members.assign left new members) := rfl
      have rightHere : atMember right rightChange (.object members) =
          (rightChange (Members.get? members right)).map fun new =>
            .object (Members.assign right new members) := rfl
      have leftBehind := atMember_assign different leftChange
      have rightBehind := atMember_assign different.symm rightChange
      cases leftFound : leftChange (Members.get? members left) <;>
        cases rightFound : rightChange (Members.get? members right) <;>
          constructor <;>
            simp only [leftHere, rightHere, leftFound, rightFound, leftBehind, rightBehind,
              Option.map_none, Option.map_some, Option.getD_none, Option.getD_some,
              Option.isSome_none, Option.isSome_some, Members.assign_comm sorted different]
  | null | bool | number | string | array => exact ⟨rfl, rfl, rfl⟩

/-- What commutes in a child commutes in the value around it. -/
theorem commute_changeChild {value : Json} (wellFormed : value.WellFormed) {step : Step}
    (inside : forall child, value.child? step = some child -> Commute first second child) :
    Commute (changeChild? step first) (changeChild? step second) value := by
  cases found : value.child? step with
  | none =>
      have misses : forall change, changeChild? step change value = none := by
        intro change
        rw [changeChild?, found, Option.bind_none]
      constructor <;> rw [misses, misses, Option.getD_none]
      · rw [misses, misses]
      · rw [misses]
      · rw [misses]
  | some child =>
      have commute := inside child found
      constructor
      · rw [getD_changeChild? wellFormed found first, getD_changeChild? wellFormed found second,
          getD_changeChild?_withChild wellFormed found, getD_changeChild?_withChild wellFormed found,
          commute.same]
      · rw [getD_changeChild? wellFormed found second,
          changeChild?_of_child? (child?_withChild found _), changeChild?_of_child? found,
          Option.isSome_map, Option.isSome_map, commute.firstHits]
      · rw [getD_changeChild? wellFormed found first,
          changeChild?_of_child? (child?_withChild found _), changeChild?_of_child? found,
          Option.isSome_map, Option.isSome_map, commute.secondHits]

theorem commute_updateAt? (container : forall value : Json, value.WellFormed ->
      Commute first second value) (steps : List Step) :
    forall value : Json, value.WellFormed ->
      Commute (fun value => value.updateAt? steps first)
        (fun value => value.updateAt? steps second) value := by
  induction steps with
  | nil => exact container
  | cons step rest ih =>
      intro value wellFormed
      simp only [updateAt?_cons]
      exact commute_changeChild wellFormed fun child found => ih child (wellFormed.of_child? found)

/-! ## Ways through a member -/

/-- A change of what a way through a member leads to is a change of that member. -/
theorem exists_atMember_of_updateAt? (shared rest : List Step) (name : String)
    (change : Json -> Option Json) :
    Exists fun through => forall document : Json,
      document.updateAt? (shared ++ .field name :: rest) change =
        document.updateAt? shared (atMember name through) := by
  refine ⟨fun old => (old.bind fun child => child.updateAt? rest change).map some, ?_⟩
  intro document
  rw [updateAt?_append]
  apply congrArg
  funext container
  rw [updateAt?_cons, changeChild?_field]

/-- A change in the last container on a way through a member is a change of that member, if
it is one where the member is the end of the way. -/
theorem exists_atMember_of_updateParent? {path : Path} {shared rest : List Step} {name : String}
    (way : path.steps = shared ++ .field name :: rest) {change : Json -> Step -> Option Json}
    {own : Option Json -> Option (Option Json)}
    (atEnd : forall container : Json, change container (.field name) = atMember name own container) :
    Exists fun through => forall document : Json,
      document.updateParent? path change = document.updateAt? shared (atMember name through) := by
  cases List.eq_nil_or_concat' rest with
  | inl none =>
      subst rest
      have ends : path.last? = some (.field name) := by
        rw [Path.last?, way, List.getLast?_concat]
      have here : (fun container => change container (.field name)) = atMember name own :=
        funext atEnd
      refine ⟨own, fun document => ?_⟩
      rw [updateParent?_of_last? ends, way, List.dropLast_concat, here]
  | inr further =>
      rcases further with ⟨front, last, rfl⟩
      have whole : shared ++ .field name :: (front ++ [last]) =
          (shared ++ .field name :: front) ++ [last] := by
        rw [List.append_assoc, List.cons_append]
      have ends : path.last? = some last := by
        rw [Path.last?, way, whole, List.getLast?_concat]
      rcases exists_atMember_of_updateAt? shared front name (change · last) with ⟨through, same⟩
      refine ⟨through, fun document => ?_⟩
      rw [updateParent?_of_last? ends, way, whole, List.dropLast_concat, same]

end Json

/-! ## Operations -/

namespace Path

/-- Two paths go the same way, and then on to members of different names. -/
def PartAtMembers (first second : Path) : Prop :=
  Exists fun shared : List Step => Exists fun left : String => Exists fun right : String =>
    left ≠ right ∧
      (Exists fun rest => first.steps = shared ++ .field left :: rest) ∧
      Exists fun rest => second.steps = shared ++ .field right :: rest

end Path

namespace Operation

/-- An operation whose path leads through a member is a change of that member. -/
theorem exists_atMember {operation : Operation} {shared rest : List Step} {name : String}
    (way : operation.path.steps = shared ++ .field name :: rest) :
    Exists fun change => forall document : Json,
      operation.effect? document = document.updateAt? shared (Json.atMember name change) := by
  cases operation with
  | set path value =>
      cases value with
      | absent =>
          exact Json.exists_atMember_of_updateParent? way fun container =>
            container.drop?_field name
      | present value =>
          exact Json.exists_atMember_of_updateParent? way fun container =>
            container.put?_field name value
  | change path value =>
      have way : path.steps = shared ++ .field name :: rest := way
      have below : path.isRoot = false := by
        rw [Path.isRoot, way, List.isEmpty_eq_false_iff]
        exact List.append_ne_nil_of_right_ne_nil _ (List.cons_ne_nil _ _)
      rcases Json.exists_atMember_of_updateAt? shared rest name fun _ => some value.toJson with
        ⟨through, same⟩
      refine ⟨through, fun document => ?_⟩
      rw [effect?, Json.replace?, below, way, ← same]
      rfl
  | unset path =>
      exact Json.exists_atMember_of_updateParent? way fun container => container.drop?_field name
  | patch document => cases List.append_ne_nil_of_right_ne_nil shared (List.cons_ne_nil _ _) way.symm
  | arrayInsert path value =>
      exact Json.exists_atMember_of_updateParent? way fun container =>
        container.squeeze?_field name value.toJson
  | arrayAppend path value =>
      have way : path.steps = shared ++ .field name :: rest := way
      rcases Json.exists_atMember_of_updateAt? shared rest name fun found =>
        some (found.extend value.toJson) with ⟨through, same⟩
      refine ⟨through, fun document => ?_⟩
      rw [effect?, Json.append?, way, same]

/-- Operations at paths that part at members make the same of a document in either order, and
each of them finds its target in it or misses it whether or not the other one came first.
No patch is such an operation, since a patch has the root for its path. -/
theorem commute_of_partAtMembers {first second : Operation}
    (parted : first.path.PartAtMembers second.path) {document : Json}
    (wellFormed : document.WellFormed) :
    second.apply (first.apply document) = first.apply (second.apply document) ∧
      first.hits (second.apply document) = first.hits document ∧
      second.hits (first.apply document) = second.hits document := by
  rcases parted with ⟨shared, left, right, different, ⟨_, leftWay⟩, ⟨_, rightWay⟩⟩
  rcases exists_atMember leftWay with ⟨leftChange, leftEffect⟩
  rcases exists_atMember rightWay with ⟨rightChange, rightEffect⟩
  have commute : Json.Commute first.effect? second.effect? document := by
    rw [funext leftEffect, funext rightEffect]
    exact Json.commute_updateAt? (fun _ => Json.commute_atMember different leftChange rightChange)
      shared document wellFormed
  exact ⟨commute.same, commute.firstHits, commute.secondHits⟩

/-- An element with two members. -/
def pairedElement : Json :=
  .object [("a", .array [.object [("x", .null), ("y", .object [("z", .bool true)])], .bool false])]

/-- Remove the one member of the element. -/
def removeX : Operation :=
  .unset ⟨[.field "a", .index 0, .field "x"]⟩

/-- Add to a value in the other member, which is no array yet. -/
def extendZ : Operation :=
  .arrayAppend ⟨[.field "a", .index 0, .field "y", .field "z"]⟩ (.ofString "v")

theorem commute_pairedElement :
    removeX.path.PartAtMembers extendZ.path ∧ pairedElement.WellFormed ∧
      extendZ.apply (removeX.apply pairedElement) =
        .object [("a", .array [
          .object [("y", .object [("z", .array [.bool true, .string "v"])])], .bool false])] ∧
      removeX.apply (extendZ.apply pairedElement) = extendZ.apply (removeX.apply pairedElement) ∧
      removeX.hits (extendZ.apply pairedElement) = true ∧
      extendZ.hits (removeX.apply pairedElement) = true := by
  have parted : removeX.path.PartAtMembers extendZ.path :=
    ⟨[.field "a", .index 0], "x", "y", by decide, ⟨[], rfl⟩, ⟨[.field "z"], rfl⟩⟩
  have wellFormed : pairedElement.WellFormed := by decide
  have commute := commute_of_partAtMembers parted wellFormed
  exact ⟨parted, wellFormed, rfl, commute.1.symm, commute.2.1.trans rfl, commute.2.2.trans rfl⟩

end Operation
end Emend
