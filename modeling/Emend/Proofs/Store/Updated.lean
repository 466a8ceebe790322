import Mathlib
import Emend.Proofs.Store.AllOrNothing

namespace Emend
namespace Store

/-!
# Collections after an update

An update that is carried out puts new documents in place one after another.  The
collection that results can be written down at once: at a selected position the document is
what the update makes of it, at any other position it is what it was.  So the order of the
selection is of no consequence for the collection, only for the warnings.
-/

/-- A document after an update that concerns it.  A new value that equals the old one is not
put in its place. -/
def settled (operations : List Operation) (document : Json) : Json :=
  if differs operations document then afterAll operations document else document

/-- The documents of a collection after an update that concerns those at some positions. -/
def updated (operations : List Operation) (selected : List Nat) (documents : List Json) :
    List Json :=
  documents.mapIdx fun position document =>
    if position ∈ selected then settled operations document else document

theorem getElem?_updated (operations : List Operation) (selected : List Nat)
    (documents : List Json) (position : Nat) :
    (updated operations selected documents)[position]? =
      documents[position]?.map fun document =>
        if position ∈ selected then settled operations document else document :=
  List.getElem?_mapIdx

theorem length_updated (operations : List Operation) (selected : List Nat)
    (documents : List Json) :
    (updated operations selected documents).length = documents.length :=
  List.length_mapIdx

/-- The document at a selected position, if there is one. -/
theorem getD_updated_of_mem {operations : List Operation} {selected : List Nat}
    {documents : List Json} {position : Nat} (chosen : position ∈ selected)
    (inRange : position < documents.length) :
    (updated operations selected documents).getD position .null =
      settled operations (documents.getD position .null) := by
  rw [List.getD_eq_getElem?_getD, List.getD_eq_getElem?_getD, getElem?_updated,
    List.getElem?_eq_getElem inRange, Option.map_some, if_pos chosen]
  rfl

/-- Which positions are selected decides, not their order. -/
theorem updated_congr (operations : List Operation) {selected others : List Nat}
    (same : forall position, position ∈ selected ↔ position ∈ others) (documents : List Json) :
    updated operations selected documents = updated operations others documents := by
  apply List.ext_getElem?
  intro position
  simp only [getElem?_updated, same position]

/-! ## The answer in one piece -/

variable {store : Store} {update : Update} {name : String} {documents results : List Json}
  {selected : List Nat}

theorem Effect.results_eq {outcome : Outcome} {after : Store}
    (effect : Effect store update name documents selected results outcome after) :
    results = updated update.operations selected documents := by
  apply List.ext_getElem?
  intro position
  rw [getElem?_updated]
  by_cases chosen : position ∈ selected
  · cases found : documents[position]? with
    | none =>
        rw [Option.map_none, List.getElem?_eq_none_iff, effect.length]
        exact List.getElem?_eq_none_iff.mp found
    | some document =>
        rw [Option.map_some, if_pos chosen, settled]
        cases changes : differs update.operations document with
        | true => exact effect.changed position document chosen found changes
        | false => exact effect.unchanged position document chosen found changes
  · simp only [chosen, if_false, Option.map_id']
    exact effect.unselected position chosen

theorem answer_of_kept (concerned : Concerns store update name documents selected)
    (kept : forall position, position ∈ selected ->
      KeepsKey update.operations (documents.getD position .null)) :
    store.answer update =
      (.ok ⟨UInt64.ofNat (selected.countP fun position =>
            differs update.operations (documents.getD position .null)), [],
          warningsOn update.operations documents selected⟩,
        store.addCollection name (updated update.operations selected documents)) := by
  have effect : Effect store update name documents selected _ _ _ :=
    effect_of_prepared concerned.nodup
  rw [answer_of_prepared concerned kept, ← effect.results_eq, ← length_updates]

/-- An update that succeeds concerns documents that all keep their keys. -/
theorem concerns_of_answer_ok {outcome : Outcome} (succeeded : (store.answer update).1 = .ok outcome) :
    Exists fun name => Exists fun documents => Exists fun selected =>
      Concerns store update name documents selected ∧
      forall position, position ∈ selected ->
        KeepsKey update.operations (documents.getD position .null) := by
  rcases reason_or_effect store update with ⟨refusal, reason⟩ | concerned
  · rw [answer_of_reason reason] at succeeded
    cases succeeded
  · exact concerned

/-- An update without an outcome leaves the store as it was. -/
theorem answer_of_no_outcome (failed : forall outcome, (store.answer update).1 ≠ .ok outcome) :
    (store.answer update).2 = store := by
  rcases reason_or_effect store update with
    ⟨refusal, reason⟩ | ⟨name, documents, selected, concerned, kept⟩
  · rw [answer_of_reason reason]
  · have answered := answer_of_kept concerned kept
    exact False.elim (failed _ (congrArg Prod.fst answered))

end Store
end Emend
