import Mathlib.Data.List.InsertIdx
import Emend.Operation.Effect
import Emend.Proofs.Document.Overwrite
import Emend.Proofs.Document.MergePatch
import Emend.Proofs.Json.Equality

namespace Emend

/-!
# Operations on equal documents

An operation looks at names, indices and kinds of values, and moves values about.  It never
looks at a number.  So it makes equal documents of equal documents, and hits both of them or
misses both.

Stated with representatives this is a law of each change: the representative of what the
change makes of a value is what it makes of the representative.
-/

namespace Json

/-! ## One step -/

theorem child?_representative (value : Json) (step : Step) :
    (value.child? step).map representative = value.representative.child? step := by
  cases value with
  | object members =>
      rw [representative_object]
      cases step with
      | field name => exact (Members.get?_mapValues representative members name).symm
      | index position => rfl
  | array items =>
      rw [representative_array]
      cases step with
      | field name => rfl
      | index position => exact List.getElem?_map.symm
  | null | bool | number | string => cases step <;> rfl

theorem representative_withChild (value new : Json) (step : Step) :
    (value.withChild step new).representative =
      value.representative.withChild step new.representative := by
  cases value with
  | object members =>
      rw [representative_object]
      cases step with
      | field name =>
          rw [withChild, representative_object, Members.mapValues_insert, withChild]
      | index position => exact representative_object members
  | array items =>
      rw [representative_array]
      cases step with
      | field name => exact representative_array items
      | index position => rw [withChild, representative_array, List.map_set, withChild]
  | null | bool | number | string => cases step <;> rfl

theorem put?_representative (container value : Json) (step : Step) :
    (container.put? step value).map representative =
      container.representative.put? step value.representative := by
  cases container with
  | object members =>
      rw [representative_object]
      cases step with
      | field name =>
          rw [put?, put?, Option.map_some, representative_object, Members.mapValues_insert]
      | index position => rfl
  | array items =>
      rw [representative_array]
      cases step with
      | field name => rfl
      | index position =>
          rw [put?, put?, List.length_map]
          split
          · rw [Option.map_some, representative_array, List.map_set]
          · rw [Option.map_some, representative_array, List.map_append, List.map_singleton]
  | null | bool | number | string => cases step <;> rfl

theorem drop?_representative (container : Json) (step : Step) :
    (container.drop? step).map representative = container.representative.drop? step := by
  cases container with
  | object members =>
      rw [representative_object]
      cases step with
      | field name =>
          rw [drop?, drop?, Members.get?_mapValues, Option.isSome_map]
          split
          · rw [Option.map_some, representative_object, Members.mapValues_erase]
          · rfl
      | index position => rfl
  | array items =>
      rw [representative_array]
      cases step with
      | field name => rfl
      | index position =>
          rw [drop?, drop?, List.length_map]
          split
          · rw [Option.map_some, representative_array, List.eraseIdx_map]
          · rfl
  | null | bool | number | string => cases step <;> rfl

theorem squeeze?_representative (container value : Json) (step : Step) :
    (container.squeeze? step value).map representative =
      container.representative.squeeze? step value.representative := by
  cases container with
  | object members =>
      rw [representative_object]
      cases step <;> rfl
  | array items =>
      rw [representative_array]
      cases step with
      | field name => rfl
      | index position =>
          rw [squeeze?, squeeze?, List.length_map, Option.map_some, representative_array,
            List.map_insertIdx]
  | null | bool | number | string => cases step <;> rfl

theorem representative_extend (old value : Json) :
    (old.extend value).representative = old.representative.extend value.representative := by
  cases old with
  | array items =>
      rw [extend, representative_array, representative_array, extend, List.map_append,
        List.map_singleton]
  | object | null | bool | number | string => exact representative_array [_, value]

/-! ## The way to the place of a change -/

variable {change onRepresentative : Json -> Option Json}

theorem updateAt?_representative
    (follows : forall value : Json,
      (change value).map representative = onRepresentative value.representative)
    (steps : List Step) :
    forall value : Json, (value.updateAt? steps change).map representative =
      value.representative.updateAt? steps onRepresentative := by
  induction steps with
  | nil => exact follows
  | cons step rest ih =>
      intro value
      rw [updateAt?_cons, updateAt?_cons, changeChild?, changeChild?, ← child?_representative]
      cases value.child? step with
      | none => rfl
      | some child =>
          rw [Option.map_some, Option.bind_some, Option.bind_some, ← ih child, Option.map_map,
            Option.map_map]
          apply congrFun
          apply congrArg
          funext changed
          exact representative_withChild value changed step

theorem updateParent?_representative {change onRepresentative : Json -> Step -> Option Json}
    (follows : forall (container : Json) (step : Step),
      (change container step).map representative = onRepresentative container.representative step)
    (document : Json) (path : Path) :
    (document.updateParent? path change).map representative =
      document.representative.updateParent? path onRepresentative := by
  rw [updateParent?, updateParent?]
  cases path.last? with
  | none => rfl
  | some last => exact updateAt?_representative (fun container => follows container last) _ document

/-! ## Merge patches -/

mutual
theorem representative_mergePatch (patch document : Json) :
    (mergePatch patch document).representative =
      mergePatch patch.representative document.representative := by
  cases patch with
  | object members =>
      rw [mergePatch_object, representative_object, representative_object, mergePatch_object,
        members_representative, mapValues_mergeMembers members document.members]
  | array items => rw [representative_array]; exact representative_array items
  | null | bool | number | string => rfl
termination_by structural patch

theorem mapValues_mergeMembers (patch : List (String × Json)) (members : Members Json) :
    Members.mapValues representative (mergeMembers patch members) =
      mergeMembers (Members.mapValues representative patch)
        (Members.mapValues representative members) := by
  cases patch with
  | nil => rfl
  | cons member rest =>
      rcases member with ⟨name, value⟩
      have patched := representative_mergePatch value ((Members.get? members name).getD .null)
      have old : ((Members.get? members name).getD .null).representative =
          ((Members.get? members name).map representative).getD .null :=
        (Option.getD_map representative .null _).symm
      have front : Members.mapValues representative ((name, value) :: rest) =
          (name, value.representative) :: Members.mapValues representative rest := rfl
      rw [front, mergeMembers_cons, mergeMembers_cons, mapValues_mergeMembers rest,
        isNull_representative, Members.get?_mapValues, ← old, ← patched]
      cases value.isNull with
      | true => exact congrArg (mergeMembers _) (Members.mapValues_erase representative name members)
      | false =>
          exact congrArg (mergeMembers _)
            (Members.mapValues_insert representative name _ members)
termination_by structural patch
end

end Json

/-! ## Operations -/

namespace Operation

/-- The representative of what an operation makes of a document depends on the representative
of the document alone.  The function here is the operation with the representative of its
value, or of its patch. -/
theorem exists_effect_on_representative (operation : Operation) :
    Exists fun onRepresentative : Json -> Option Json => forall document : Json,
      (operation.effect? document).map Json.representative =
        onRepresentative document.representative := by
  have deletes : forall (path : Path) (document : Json),
      (document.delete? path).map Json.representative = document.representative.delete? path :=
    fun path document => Json.updateParent?_representative Json.drop?_representative document path
  cases operation with
  | set path value =>
      cases value with
      | absent => exact ⟨fun document => document.delete? path, deletes path⟩
      | present value =>
          exact ⟨fun document => document.set? path value.representative, fun document =>
            Json.updateParent?_representative
              (fun container step => container.put?_representative value step) document path⟩
  | change path value =>
      refine ⟨fun document => document.replace? path value.toJson.representative, fun document => ?_⟩
      simp only [effect?, Json.replace?]
      split
      · rfl
      · exact Json.updateAt?_representative (fun _ => rfl) _ document
  | unset path => exact ⟨fun document => document.delete? path, deletes path⟩
  | patch members =>
      exact ⟨fun document => some (Json.mergePatch (Json.object members).representative document),
        fun document => congrArg some (Json.representative_mergePatch (.object members) document)⟩
  | arrayInsert path value =>
      exact ⟨fun document => document.insert? path value.toJson.representative, fun document =>
        Json.updateParent?_representative
          (fun container step => container.squeeze?_representative value.toJson step) document path⟩
  | arrayAppend path value =>
      have grows : forall found : Json,
          (some (found.extend value.toJson)).map Json.representative =
            some (found.representative.extend value.toJson.representative) :=
        fun found => congrArg some (found.representative_extend value.toJson)
      exact ⟨fun document => document.append? path value.toJson.representative,
        Json.updateAt?_representative grows path.steps⟩

variable {left right : Json}

theorem effect?_of_equal (same : left.representative = right.representative)
    (operation : Operation) :
    (operation.effect? left).map Json.representative =
      (operation.effect? right).map Json.representative := by
  rcases operation.exists_effect_on_representative with ⟨onRepresentative, effect⟩
  rw [effect, effect, same]

/-- An operation hits equal documents or misses them. -/
theorem hits_of_equal (same : left.representative = right.representative)
    (operation : Operation) : operation.hits left = operation.hits right := by
  have effects := congrArg Option.isSome (effect?_of_equal same operation)
  rw [Option.isSome_map, Option.isSome_map] at effects
  exact effects

theorem apply_of_equal (same : left.representative = right.representative)
    (operation : Operation) :
    (operation.apply left).representative = (operation.apply right).representative := by
  rw [apply, apply, ← Option.getD_map Json.representative, ← Option.getD_map Json.representative,
    effect?_of_equal same, same]

end Operation
end Emend
