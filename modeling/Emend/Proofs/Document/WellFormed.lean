import Mathlib.Data.List.Basic
import Emend.Operation.Effect
import Emend.Proofs.Document.MergePatch
import Emend.Proofs.Document.Overwrite
import Emend.Proofs.Operation.Form

namespace Emend

/-!
# Changes make documents of documents

What an operation makes of a document is a document again, if the values that come with the
operation are documents.  Every change is one to a container at the end of a way, so it is
enough to look at containers.
-/

namespace Json

/-! ## Containers -/

theorem wellFormed_array_iff (items : List Json) :
    (array items).WellFormed ↔ forall item, item ∈ items -> item.WellFormed := by
  rw [WellFormed, wellFormedItems_iff]

theorem WellFormed.insert {members : Members Json} (wellFormed : (object members).WellFormed)
    (name : String) {value : Json} (added : value.WellFormed) :
    (object (Members.insert name value members)).WellFormed := by
  rw [wellFormed_object_iff] at wellFormed ⊢
  refine ⟨wellFormed.1.insert name value, ?_⟩
  intro member listed
  rcases Members.mem_insert listed with same | old
  · rw [same]
    exact added
  · exact wellFormed.2 member old

theorem WellFormed.set {items : List Json} (wellFormed : (array items).WellFormed)
    (position : Nat) {value : Json} (added : value.WellFormed) :
    (array (items.set position value)).WellFormed := by
  rw [wellFormed_array_iff] at wellFormed ⊢
  intro item listed
  rcases List.mem_or_eq_of_mem_set listed with old | same
  · exact wellFormed item old
  · rw [same]
    exact added

theorem WellFormed.concat {items : List Json} (wellFormed : (array items).WellFormed)
    {value : Json} (added : value.WellFormed) : (array (items ++ [value])).WellFormed := by
  rw [wellFormed_array_iff] at wellFormed ⊢
  exact List.forall_mem_append.mpr ⟨wellFormed, List.forall_mem_singleton.mpr added⟩

theorem WellFormed.withChild {value child : Json} (wellFormed : value.WellFormed) (step : Step)
    (changed : child.WellFormed) : (value.withChild step child).WellFormed := by
  cases value with
  | object members =>
      cases step with
      | field name => exact wellFormed.insert name changed
      | index position => exact wellFormed
  | array items =>
      cases step with
      | field name => exact wellFormed
      | index position => exact wellFormed.set position.toNat changed
  | null | bool | number | string => cases step <;> exact wellFormed

/-! ## Changes of containers -/

section Containers

variable {container changed value : Json} {step : Step}

theorem WellFormed.put? (wellFormed : container.WellFormed) (added : value.WellFormed)
    (written : container.put? step value = some changed) : changed.WellFormed := by
  cases container with
  | object members =>
      cases step with
      | field name =>
          cases written
          exact wellFormed.insert name added
      | index position => cases written
  | array items =>
      cases step with
      | field name => cases written
      | index position =>
          rw [Json.put?] at written
          split at written
          · cases written
            exact wellFormed.set position.toNat added
          · cases written
            exact wellFormed.concat added
  | null | bool | number | string => cases step <;> cases written

theorem WellFormed.drop? (wellFormed : container.WellFormed)
    (dropped : container.drop? step = some changed) : changed.WellFormed := by
  cases container with
  | object members =>
      cases step with
      | field name =>
          rw [Json.drop?] at dropped
          split at dropped
          · cases dropped
            rw [wellFormed_object_iff] at wellFormed ⊢
            exact ⟨wellFormed.1.erase name, fun member listed =>
              wellFormed.2 member (List.mem_of_mem_filter listed)⟩
          · cases dropped
      | index position => cases dropped
  | array items =>
      cases step with
      | field name => cases dropped
      | index position =>
          rw [Json.drop?] at dropped
          split at dropped
          · cases dropped
            rw [wellFormed_array_iff] at wellFormed ⊢
            exact fun item listed => wellFormed item (List.mem_of_mem_eraseIdx listed)
          · cases dropped
  | null | bool | number | string => cases step <;> cases dropped

theorem WellFormed.squeeze? (wellFormed : container.WellFormed) (added : value.WellFormed)
    (inserted : container.squeeze? step value = some changed) : changed.WellFormed := by
  cases container with
  | array items =>
      cases step with
      | field name => cases inserted
      | index position =>
          cases inserted
          rw [wellFormed_array_iff] at wellFormed ⊢
          intro item listed
          rcases (List.mem_insertIdx (Nat.min_le_right _ _)).mp listed with same | old
          · rw [same]
            exact added
          · exact wellFormed item old
  | object | null | bool | number | string => cases step <;> cases inserted

theorem WellFormed.extend (wellFormed : container.WellFormed) (added : value.WellFormed) :
    (container.extend value).WellFormed := by
  cases container with
  | array items => exact wellFormed.concat added
  | object | null | bool | number | string =>
      exact ⟨wellFormed, added, trivial⟩

end Containers

/-! ## Changes at paths -/

theorem WellFormed.updateAt? {change : Json -> Option Json}
    (keeps : forall inner changed : Json, inner.WellFormed -> change inner = some changed ->
      changed.WellFormed) (steps : List Step) :
    forall value changed : Json, value.WellFormed -> value.updateAt? steps change = some changed ->
      changed.WellFormed := by
  induction steps with
  | nil => exact keeps
  | cons step rest ih =>
      intro value changed wellFormed updated
      rw [updateAt?_cons, changeChild?] at updated
      rcases Option.bind_eq_some_iff.mp updated with ⟨child, found, below⟩
      rcases Option.map_eq_some_iff.mp below with ⟨inner, changedChild, rfl⟩
      exact wellFormed.withChild step (ih child inner (wellFormed.of_child? found) changedChild)

theorem WellFormed.updateParent? {change : Json -> Step -> Option Json}
    (keeps : forall (step : Step) (inner changed : Json), inner.WellFormed ->
      change inner step = some changed -> changed.WellFormed)
    {document changed : Json} {path : Path} (wellFormed : document.WellFormed)
    (updated : document.updateParent? path change = some changed) : changed.WellFormed := by
  rw [Json.updateParent?] at updated
  split at updated
  · cases updated
  · next last _ => exact WellFormed.updateAt? (keeps last) _ document changed wellFormed updated

end Json

/-! ## Operations -/

/-- What an operation makes of a document is a document. -/
theorem Operation.WellFormed.effect? {operation : Operation} (values : operation.WellFormed)
    {document changed : Json} (wellFormed : document.WellFormed)
    (effect : operation.effect? document = some changed) : changed.WellFormed := by
  cases operation with
  | set path value =>
      cases value with
      | present value =>
          exact Json.WellFormed.updateParent?
            (fun _ _ _ container written => container.put? values written) wellFormed effect
      | absent =>
          exact Json.WellFormed.updateParent?
            (fun _ _ _ container dropped => container.drop? dropped) wellFormed effect
  | change path value =>
      rw [Operation.effect?, Json.replace?] at effect
      split at effect
      · cases effect
      · exact Json.WellFormed.updateAt? (fun _ _ _ replaced => Option.some.inj replaced ▸ values)
          _ document changed wellFormed effect
  | unset path =>
      exact Json.WellFormed.updateParent?
        (fun _ _ _ container dropped => container.drop? dropped) wellFormed effect
  | patch members =>
      cases effect
      exact Json.wellFormed_mergePatch _ values document wellFormed
  | arrayInsert path value =>
      exact Json.WellFormed.updateParent?
        (fun _ _ _ container inserted => container.squeeze? values inserted) wellFormed effect
  | arrayAppend path value =>
      exact Json.WellFormed.updateAt?
        (fun _ _ container extended => Option.some.inj extended ▸ container.extend values)
        _ document changed wellFormed effect

theorem Operation.WellFormed.apply {operation : Operation} (values : operation.WellFormed)
    {document : Json} (wellFormed : document.WellFormed) :
    (operation.apply document).WellFormed := by
  rw [Operation.apply]
  cases effect : operation.effect? document with
  | none => exact wellFormed
  | some changed => exact values.effect? wellFormed effect

end Emend
