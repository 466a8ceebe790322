import Emend.Operation.Effect
import Emend.Proofs.Document.Overwrite

namespace Emend

/-!
# Operations in place

A document can also be changed where it stands.  A way is walked to one of its parts, the
part is written over, and a flag tells whether the change found what it needs.  Here the flag
and the document are two things: nothing in the form of such a change keeps it from writing
first and saying no afterwards.

That a document is left alone where the flag says no is a fact about each of the changes,
which the walk hands on to the whole document.  With it, an operation in place comes to the
same as the change that gives a new document or none.
-/

/-! ## Writing over a part -/

namespace Members

variable {Value : Type}

/-- Members with the value of a name written over.  No member is added. -/
def overwrite (name : String) (value : Value) : Members Value -> Members Value
  | [] => []
  | (other, old) :: rest =>
      if name = other then (other, value) :: rest else (other, old) :: overwrite name value rest

theorem overwrite_of_get? {members : Members Value} {name : String} {value : Value}
    (found : get? members name = some value) : overwrite name value members = members := by
  induction members with
  | nil => rfl
  | cons member rest ih =>
      rcases member with ⟨other, old⟩
      rw [overwrite]
      split
      · next same =>
          subst same
          rw [get?_cons_same] at found
          rw [Option.some.inj found]
      · next different =>
          rw [get?_cons_of_ne different] at found
          rw [ih found]

/-- In sorted members, writing over a value that is there is putting the new one. -/
theorem overwrite_eq_insert {members : Members Value} (sorted : Sorted members) {name : String}
    (there : (get? members name).isSome) (value : Value) :
    overwrite name value members = insert name value members := by
  induction members with
  | nil => cases there
  | cons member rest ih =>
      rcases member with ⟨other, old⟩
      rw [overwrite, insert]
      cases order : compare name other with
      | lt =>
          rw [get?_eq_none_of_lt sorted order] at there
          cases there
      | eq =>
          have same : name = other := Std.compare_eq_iff_eq.mp order
          rw [if_pos same, same]
      | gt =>
          have different : name ≠ other := by
            intro same
            rw [Std.compare_eq_iff_eq.mpr same] at order
            cases order
          rw [get?_cons_of_ne different] at there
          rw [if_neg different]
          exact congrArg _ (ih (List.pairwise_cons.mp sorted).2 there)

end Members

namespace Json

/-- The value with the child that a step leads to written over. -/
def overwriteChild : Json -> Step -> Json -> Json
  | .object members, .field name, value => .object (Members.overwrite name value members)
  | .array items, .index position, value => .array (items.set position.toNat value)
  | other, _, _ => other

section

variable {value child : Json} {step : Step}

theorem overwriteChild_of_child? (found : value.child? step = some child) :
    value.overwriteChild step child = value := by
  cases value with
  | object members =>
      cases step with
      | field name => exact congrArg object (Members.overwrite_of_get? found)
      | index position => cases found
  | array items =>
      cases step with
      | field name => cases found
      | index position =>
          rcases List.getElem?_eq_some_iff.mp found with ⟨inside, same⟩
          rw [overwriteChild, ← same, List.set_getElem_self]
  | null | bool | number | string => cases step <;> cases found

theorem overwriteChild_eq_withChild (wellFormed : value.WellFormed)
    (found : value.child? step = some child) (new : Json) :
    value.overwriteChild step new = value.withChild step new := by
  cases value with
  | object members =>
      cases step with
      | field name =>
          rw [wellFormed_object_iff] at wellFormed
          have there : (Members.get? members name).isSome := Option.isSome_of_eq_some found
          exact congrArg object (Members.overwrite_eq_insert wellFormed.1 there new)
      | index position => rfl
  | null | bool | number | string | array => cases step <;> rfl

end

/-! ## Changes in place -/

/-- A change in place: whether it found what it needs, and the value that it leaves behind. -/
abbrev InPlace := Json -> Bool × Json

namespace InPlace

/-- Change the part that steps lead to.  Whatever is left of the part is written over it,
without a look at the flag. -/
def along : List Step -> InPlace -> InPlace
  | [], change, value => change value
  | step :: rest, change, value =>
      match value.child? step with
      | none => (false, value)
      | some child =>
          let (found, left) := along rest change child
          (found, value.overwriteChild step left)

/-- Change the container in which the last step of a path is taken. -/
def atParent (path : Path) (change : Step -> InPlace) : InPlace :=
  fun document =>
    match path.last? with
    | none => (false, document)
    | some last => along path.steps.dropLast (change last) document

/-- Write a member or an element; an index past the end adds an element. -/
def put (value : Json) : Step -> InPlace
  | .field name, .object members => (true, .object (Members.insert name value members))
  | .index position, .array items =>
      if position.toNat < items.length then (true, .array (items.set position.toNat value))
      else (true, .array (items ++ [value]))
  | _, other => (false, other)

/-- Remove a member or an element.  A member is removed first, and then it is told whether it
was there. -/
def drop : Step -> InPlace
  | .field name, .object members =>
      ((Members.get? members name).isSome, .object (Members.erase name members))
  | .index position, .array items =>
      if position.toNat < items.length then (true, .array (items.eraseIdx position.toNat))
      else (false, .array items)
  | _, other => (false, other)

/-- Put an element in front of the one at an index, or at the end. -/
def squeeze (value : Json) : Step -> InPlace
  | .index position, .array items =>
      (true, .array (items.insertIdx (min position.toNat items.length) value))
  | _, other => (false, other)

/-- Leave a value that is made of the old one. -/
def always (make : Json -> Json) : InPlace :=
  fun value => (true, make value)

/-- Miss every value. -/
def never : InPlace :=
  fun value => (false, value)

end InPlace

/-! ## What changes in place carry out -/

/-- A change in place carries out a change that may miss: its flag tells whether that one
misses, it leaves alone what that one misses, and otherwise it leaves the same value behind. -/
structure InPlace.CarriesOut (change : InPlace) (effect? : Json -> Option Json) : Prop where
  flag : forall value, (change value).1 = (effect? value).isSome
  missed : forall value, (change value).1 = false -> (change value).2 = value
  changed : forall value after, value.WellFormed -> effect? value = some after ->
    (change value).2 = after

namespace InPlace

/-- A change that is told whole by the one that may miss carries it out. -/
theorem CarriesOut.of_eq {change : InPlace} {effect? : Json -> Option Json}
    (same : forall value, change value = ((effect? value).isSome, (effect? value).getD value)) :
    CarriesOut change effect? where
  flag value := by rw [same]
  missed value no := by
    rw [same] at no ⊢
    have none : effect? value = none :=
      Option.isNone_iff_eq_none.mp (Option.isSome_eq_false_iff.mp no)
    rw [none, Option.getD_none]
  changed value after _ made := by
    rw [same, made]
    rfl

theorem carriesOut_always (make : Json -> Json) :
    CarriesOut (always make) fun value => some (make value) :=
  .of_eq fun _ => rfl

theorem carriesOut_never : CarriesOut never fun _ => none :=
  .of_eq fun _ => rfl

theorem carriesOut_put (value : Json) (step : Step) :
    CarriesOut (put value step) fun container => container.put? step value := by
  apply CarriesOut.of_eq
  intro container
  cases container with
  | array items =>
      cases step with
      | field name => rfl
      | index position =>
          rw [put, put?]
          split <;> rfl
  | null | bool | number | string | object => cases step <;> rfl

theorem carriesOut_drop (step : Step) :
    CarriesOut (drop step) fun container => container.drop? step := by
  apply CarriesOut.of_eq
  intro container
  cases container with
  | object members =>
      cases step with
      | field name =>
          rw [drop, drop?]
          cases found : Members.get? members name with
          | some child => rfl
          | none =>
              -- The name has been removed by now, but it was not there.
              rw [Members.erase_of_get? found]
              rfl
      | index position => rfl
  | array items =>
      cases step with
      | field name => rfl
      | index position =>
          rw [drop, drop?]
          split <;> rfl
  | null | bool | number | string => cases step <;> rfl

theorem carriesOut_squeeze (value : Json) (step : Step) :
    CarriesOut (squeeze value step) fun container => container.squeeze? step value := by
  apply CarriesOut.of_eq
  intro container
  cases container <;> cases step <;> rfl

/-- What is carried out on a part is carried out on the whole.  A part that is left alone is
written over with itself. -/
theorem CarriesOut.along {change : InPlace} {effect? : Json -> Option Json}
    (carries : CarriesOut change effect?) (steps : List Step) :
    CarriesOut (InPlace.along steps change) fun value => value.updateAt? steps effect? := by
  induction steps with
  | nil => exact carries
  | cons step rest ih =>
      constructor
      · intro value
        rw [updateAt?_cons, changeChild?, InPlace.along]
        cases value.child? step with
        | none => rfl
        | some child =>
            rw [Option.bind_some, Option.isSome_map]
            exact ih.flag child
      · intro value no
        rw [InPlace.along] at no ⊢
        cases here : value.child? step with
        | none => rfl
        | some child =>
            rw [here] at no
            have alone : (InPlace.along rest change child).2 = child := ih.missed child no
            dsimp only
            rw [alone, overwriteChild_of_child? here]
      · intro value after wellFormed updated
        rw [updateAt?_cons, changeChild?] at updated
        rcases Option.bind_eq_some_iff.mp updated with ⟨child, here, inChild⟩
        rcases Option.map_eq_some_iff.mp inChild with ⟨new, made, rfl⟩
        have left : (InPlace.along rest change child).2 = new :=
          ih.changed child new (wellFormed.of_child? here) made
        rw [InPlace.along, here]
        dsimp only
        rw [left, overwriteChild_eq_withChild wellFormed here]

theorem CarriesOut.atParent {change : Step -> InPlace} {effect? : Json -> Step -> Option Json}
    (carries : forall step, CarriesOut (change step) fun value => effect? value step)
    (path : Path) :
    CarriesOut (InPlace.atParent path change) fun document =>
      document.updateParent? path effect? := by
  unfold InPlace.atParent updateParent?
  cases path.last? with
  | none => exact carriesOut_never
  | some last => exact (carries last).along path.steps.dropLast

end InPlace
end Json

/-! ## Operations -/

namespace Operation

open Json (InPlace)

/-- An operation in place. -/
def inPlace : Operation -> InPlace
  | .set path (.present value) => InPlace.atParent path (InPlace.put value)
  | .set path .absent | .unset path => InPlace.atParent path InPlace.drop
  | .change path value =>
      if path.isRoot then InPlace.never
      else InPlace.along path.steps (InPlace.always fun _ => value.toJson)
  | .patch members => InPlace.always (Json.mergePatch (.object members))
  | .arrayInsert path value => InPlace.atParent path (InPlace.squeeze value.toJson)
  | .arrayAppend path value =>
      InPlace.along path.steps (InPlace.always fun found => found.extend value.toJson)

theorem carriesOut_inPlace (operation : Operation) :
    operation.inPlace.CarriesOut operation.effect? := by
  cases operation with
  | set path value =>
      cases value with
      | absent => exact .atParent InPlace.carriesOut_drop path
      | present value => exact .atParent (InPlace.carriesOut_put value) path
  | change path value =>
      have replaces : (change path value).effect? = fun document =>
          document.replace? path value.toJson := rfl
      rw [replaces, inPlace]
      unfold Json.replace?
      cases path.isRoot with
      | true => exact InPlace.carriesOut_never
      | false => exact (InPlace.carriesOut_always _).along path.steps
  | unset path => exact .atParent InPlace.carriesOut_drop path
  | patch members => exact InPlace.carriesOut_always _
  | arrayInsert path value => exact .atParent (InPlace.carriesOut_squeeze value.toJson) path
  | arrayAppend path value => exact (InPlace.carriesOut_always _).along path.steps

theorem inPlace_eq (operation : Operation) {document : Json} (wellFormed : document.WellFormed) :
    operation.inPlace document = (operation.hits document, operation.apply document) := by
  have carries := operation.carriesOut_inPlace
  have flag : (operation.inPlace document).1 = operation.hits document := carries.flag document
  refine Prod.ext flag ?_
  rw [apply]
  cases effect : operation.effect? document with
  | none =>
      rw [hits, effect] at flag
      exact carries.missed document flag
  | some after => exact carries.changed document after wellFormed effect

end Operation
end Emend
