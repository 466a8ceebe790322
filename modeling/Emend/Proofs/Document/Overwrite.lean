import Mathlib.Data.List.Basic
import Emend.Document
import Emend.Proofs.Json.WellFormed

namespace Emend
namespace Json

/-!
# Changes one after another

Two changes are made at the same place, one after the other, and each is left
out where it misses.  The second one *absorbs* the first if the first makes no
difference to the result.  Whether it does is decided in the container where the
last step is taken: the way to the container is the same for both, and every way
leads to every container in some document.
-/

/-- Where the second change follows, the first one makes no difference. -/
def Absorbs (first second : Json -> Option Json) (value : Json) : Prop :=
  (second ((first value).getD value)).getD ((first value).getD value) =
    (second value).getD value

/-! ## One step -/

/-- A child that is put where it is already changes nothing. -/
theorem withChild_of_child? {value child : Json} (wellFormed : value.WellFormed) {step : Step}
    (found : value.child? step = some child) : value.withChild step child = value := by
  cases value with
  | object members =>
      cases step with
      | field name =>
          rw [wellFormed_object_iff] at wellFormed
          exact congrArg object (Members.insert_of_get? wellFormed.1 found)
      | index position => cases found
  | array items =>
      cases step with
      | field name => cases found
      | index position =>
          rcases List.getElem?_eq_some_iff.mp found with ⟨inside, same⟩
          rw [withChild, ← same, List.set_getElem_self]
  | null | bool | number | string => cases step <;> cases found

theorem child?_withChild {value child : Json} {step : Step}
    (found : value.child? step = some child) (new : Json) :
    (value.withChild step new).child? step = some new := by
  cases value with
  | object members =>
      cases step with
      | field name => exact Members.get?_insert_same name new members
      | index position => cases found
  | array items =>
      cases step with
      | field name => cases found
      | index position =>
          rcases List.getElem?_eq_some_iff.mp found with ⟨inside, same⟩
          exact List.getElem?_set_self inside
  | null | bool | number | string => cases step <;> cases found

theorem withChild_withChild {value : Json} (wellFormed : value.WellFormed) (step : Step)
    (old new : Json) : (value.withChild step old).withChild step new = value.withChild step new := by
  cases value with
  | object members =>
      cases step with
      | field name =>
          rw [wellFormed_object_iff] at wellFormed
          exact congrArg object (Members.insert_insert wellFormed.1 name old new)
      | index position => rfl
  | array items =>
      cases step with
      | field name => rfl
      | index position => exact congrArg array (List.set_set _)
  | null | bool | number | string => cases step <;> rfl

theorem WellFormed.of_child? {value child : Json} (wellFormed : value.WellFormed) {step : Step}
    (found : value.child? step = some child) : child.WellFormed := by
  cases value with
  | object members =>
      cases step with
      | field name => exact wellFormed.of_member? found
      | index position => cases found
  | array items =>
      cases step with
      | field name => cases found
      | index position =>
          rw [WellFormed, wellFormedItems_iff] at wellFormed
          exact wellFormed child (List.mem_of_getElem? found)
  | null | bool | number | string => cases step <;> cases found

/-- The change of the child that a step leads to. -/
def changeChild? (step : Step) (change : Json -> Option Json) (value : Json) : Option Json :=
  (value.child? step).bind fun child => (change child).map (value.withChild step)

theorem changeChild?_of_child? {value child : Json} {step : Step}
    (found : value.child? step = some child) (change : Json -> Option Json) :
    changeChild? step change value = (change child).map (value.withChild step) := by
  rw [changeChild?, found, Option.bind_some]

theorem updateAt?_cons (value : Json) (step : Step) (rest : List Step)
    (change : Json -> Option Json) :
    value.updateAt? (step :: rest) change =
      changeChild? step (fun child => child.updateAt? rest change) value := by
  rw [updateAt?, changeChild?]
  apply congrArg
  funext child
  cases child.updateAt? rest change <;> rfl

/-- A change at the end of a way is a change at the end of the second part of it, made
where the first part leads. -/
theorem updateAt?_append (front rest : List Step) (change : Json -> Option Json) :
    forall value : Json, value.updateAt? (front ++ rest) change =
      value.updateAt? front fun inner => inner.updateAt? rest change := by
  induction front with
  | nil => exact fun _ => rfl
  | cons step front ih =>
      intro value
      rw [List.cons_append, updateAt?_cons, updateAt?_cons]
      exact congrArg (changeChild? step · value) (funext ih)

theorem updateParent?_of_last? {path : Path} {last : Step} (ends : path.last? = some last)
    (document : Json) (change : Json -> Step -> Option Json) :
    document.updateParent? path change =
      document.updateAt? path.steps.dropLast fun container => change container last := by
  rw [updateParent?, ends]

theorem updateAt?_of_last? {path : Path} {last : Step} (ends : path.last? = some last)
    (document : Json) (change : Json -> Option Json) :
    document.updateAt? path.steps change =
      document.updateAt? path.steps.dropLast (changeChild? last change) := by
  have whole : path.steps.dropLast ++ [last] = path.steps :=
    List.dropLast_append_getLast? last ends
  have atEnd : (fun inner : Json => inner.updateAt? [last] change) = changeChild? last change := by
    funext inner
    rw [updateAt?_cons]
    rfl
  rw [← atEnd, ← updateAt?_append, whole]

/-! ## The way to the container -/

variable {first second : Json -> Option Json}

theorem getD_changeChild? {value child : Json} (wellFormed : value.WellFormed) {step : Step}
    (found : value.child? step = some child) (change : Json -> Option Json) :
    (changeChild? step change value).getD value =
      value.withChild step ((change child).getD child) := by
  rw [changeChild?_of_child? found]
  cases change child with
  | none => exact (withChild_of_child? wellFormed found).symm
  | some changed => rfl

/-- What a change of the child misses stays as it was put there. -/
theorem getD_changeChild?_withChild {value child : Json} (wellFormed : value.WellFormed)
    {step : Step} (found : value.child? step = some child) (new : Json)
    (change : Json -> Option Json) :
    (changeChild? step change (value.withChild step new)).getD (value.withChild step new) =
      value.withChild step ((change new).getD new) := by
  rw [changeChild?_of_child? (child?_withChild found new)]
  cases change new with
  | none => rfl
  | some changed => exact withChild_withChild wellFormed step new changed

/-- What is absorbed in a child is absorbed in the value around it. -/
theorem absorbs_changeChild {value : Json} (wellFormed : value.WellFormed) {step : Step}
    (inside : forall child, value.child? step = some child -> Absorbs first second child) :
    Absorbs (changeChild? step first) (changeChild? step second) value := by
  rw [Absorbs]
  cases found : value.child? step with
  | none =>
      have misses : changeChild? step first value = none := by
        rw [changeChild?, found, Option.bind_none]
      rw [misses, Option.getD_none]
  | some child =>
      have absorbed := inside child found
      rw [Absorbs] at absorbed
      rw [getD_changeChild? wellFormed found first, getD_changeChild? wellFormed found second,
        ← absorbed, getD_changeChild?_withChild wellFormed found]

theorem absorbs_updateAt? (container : forall value : Json, value.WellFormed ->
      Absorbs first second value) (steps : List Step) :
    forall value : Json, value.WellFormed ->
      Absorbs (fun value => value.updateAt? steps first)
        (fun value => value.updateAt? steps second) value := by
  induction steps with
  | nil => exact container
  | cons step rest ih =>
      intro value wellFormed
      simp only [updateAt?_cons]
      exact absorbs_changeChild wellFormed fun child found => ih child (wellFormed.of_child? found)

/-! ## Documents around a container -/

/-- A document in which a step leads to a value. -/
def around : Step -> Json -> Json
  | .field name, value => .object [(name, value)]
  | .index position, value => .array (List.replicate position.toNat .null ++ [value])

/-- A document in which steps lead to a value. -/
def planted (steps : List Step) (value : Json) : Json :=
  steps.foldr around value

theorem child?_around (step : Step) (value : Json) :
    (around step value).child? step = some value := by
  cases step with
  | field name => exact Members.get?_cons_same name value []
  | index position =>
      have here : (List.replicate position.toNat Json.null).length = position.toNat :=
        List.length_replicate
      rw [around, child?, List.getElem?_append_right (Nat.le_of_eq here), here, Nat.sub_self]
      rfl

theorem withChild_around (step : Step) (value new : Json) :
    (around step value).withChild step new = around step new := by
  cases step with
  | field name =>
      have same : compare name name = .eq := Std.compare_eq_iff_eq.mpr rfl
      simp only [around, withChild, Members.insert, same]
  | index position =>
      have here : (List.replicate position.toNat Json.null).length = position.toNat :=
        List.length_replicate
      simp only [around, withChild, List.set_append, here, Nat.lt_irrefl, if_false, Nat.sub_self,
        List.set_cons_zero]

theorem wellFormed_around (step : Step) {value : Json} (wellFormed : value.WellFormed) :
    (around step value).WellFormed := by
  cases step with
  | field name =>
      apply (wellFormed_object_iff _).mpr
      refine ⟨List.pairwise_singleton _ _, ?_⟩
      intro member listed
      rw [List.mem_singleton.mp listed]
      exact wellFormed
  | index position =>
      rw [around, WellFormed, wellFormedItems_iff]
      intro item listed
      rcases List.mem_append.mp listed with before | here
      · rw [List.eq_of_mem_replicate before]
        trivial
      · rw [List.mem_singleton.mp here]
        exact wellFormed

theorem wellFormed_planted (steps : List Step) {value : Json} (wellFormed : value.WellFormed) :
    (planted steps value).WellFormed := by
  induction steps with
  | nil => exact wellFormed
  | cons step rest ih => exact wellFormed_around step ih

theorem around_injective {step : Step} {left right : Json}
    (same : around step left = around step right) : left = right := by
  have found := child?_around step left
  rw [same, child?_around] at found
  exact (Option.some.inj found).symm

theorem updateAt?_planted (steps : List Step) (value : Json) (change : Json -> Option Json) :
    (planted steps value).updateAt? steps change = (change value).map (planted steps) := by
  induction steps with
  | nil => exact Option.map_id'.symm
  | cons step rest ih =>
      have whole : planted (step :: rest) value = around step (planted rest value) := rfl
      rw [whole, updateAt?_cons, changeChild?_of_child? (child?_around step _), ih, Option.map_map]
      apply congrFun
      apply congrArg
      funext changed
      exact withChild_around step _ _

theorem planted_injective {steps : List Step} {left right : Json}
    (same : planted steps left = planted steps right) : left = right := by
  induction steps with
  | nil => exact same
  | cons step rest ih => exact ih (around_injective same)

theorem absorbs_of_planted {steps : List Step} {value : Json}
    (absorbed : Absorbs (fun value => value.updateAt? steps first)
      (fun value => value.updateAt? steps second) (planted steps value)) :
    Absorbs first second value := by
  have outside : forall (change : Json -> Option Json) (inner : Json),
      ((planted steps inner).updateAt? steps change).getD (planted steps inner) =
        planted steps ((change inner).getD inner) := by
    intro change inner
    rw [updateAt?_planted, Option.getD_map]
  rw [Absorbs, outside, outside, outside] at absorbed
  exact planted_injective absorbed

/-- A change at the end of a way absorbs another one there, in every document, if
and only if it does so in every container. -/
theorem absorbs_updateAt?_iff (steps : List Step) :
    (forall value : Json, value.WellFormed ->
      Absorbs (fun value => value.updateAt? steps first)
        (fun value => value.updateAt? steps second) value) ↔
      forall value : Json, value.WellFormed -> Absorbs first second value := by
  constructor
  · intro absorbed value wellFormed
    exact absorbs_of_planted (absorbed (planted steps value) (wellFormed_planted steps wellFormed))
  · intro container
    exact absorbs_updateAt? container steps

end Json
end Emend
