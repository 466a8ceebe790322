import Emend.Proofs.Result
import Emend.Statement

namespace Emend
namespace Statement

/-!
# What calls add

The operations of a statement are those that its calls added, in the order of
the calls.  A call that fails adds nothing.  So whatever holds of all operations
that the calls can add holds of the operations of the statement.
-/

/-! ## The operations of a call -/

/-- A call adds an operation: its path has been read and is not the root, and what
the operation needs besides has been found. -/
inductive Call.Adds : Call -> Operation -> Prop where
  | set {text : String} {path : Path} (value : Payload) (reached : target .set text = .ok path) :
      Adds (.set text value) (setOperation path value)
  | change {text : String} {path : Path} (value : Payload)
      (reached : target .change text = .ok path) : Adds (.change text value) (.change path value)
  | unset {texts : List String} {text : String} {path : Path} (listed : text ∈ texts)
      (reached : target .unset text = .ok path) : Adds (.unset texts) (.unset path)
  | patch (members : Members Json) : Adds (.patch (.object members)) (.patch members)
  | patchText {text : String} {members : Members Json}
      (read : Json.ofText? text = some (.object members)) : Adds (.patchText text) (.patch members)
  | arrayInsert {text : String} {path : Path} {value : Payload}
      (reached : target .arrayInsert text = .ok path) (indexed : path.endsWithIndex = true)
      (present : value.isAbsent = false) :
      Adds (.arrayInsert text value) (.arrayInsert path value)
  | arrayAppend {text : String} {path : Path} {value : Payload}
      (reached : target .arrayAppend text = .ok path) (named : path.endsWithIndex = false)
      (present : value.isAbsent = false) :
      Adds (.arrayAppend text value) (.arrayAppend path value)

/-- A call that ends with one operation adds that one. -/
theorem of_mem_added {Value : Type} {step : Except Fault Value} {make : Value -> Operation}
    {added : List Operation}
    (made : (step >>= fun value => pure [make value]) = .ok added)
    {operation : Operation} (listed : operation ∈ added) :
    Exists fun value => step = .ok value ∧ operation = make value := by
  rcases Result.exists_of_bind_eq_ok made with ⟨value, succeeded, single⟩
  cases single
  exact ⟨value, succeeded, List.mem_singleton.mp listed⟩

theorem eq_object_of_patchOperation {document : Json} {operation : Operation}
    (made : patchOperation document = .ok operation) :
    Exists fun members => document = .object members ∧ operation = .patch members := by
  cases document with
  | object members =>
      cases made
      exact ⟨members, rfl, rfl⟩
  | null | bool | number | string | array => cases made

theorem isAbsent_of_requireValue {path : Path} {value : Payload} {granted : Unit}
    (required : requireValue path value = .ok granted) : value.isAbsent = false := by
  cases value with
  | absent => cases required
  | present value => rfl

theorem adds_of_operations {call : Call} {added : List Operation}
    (made : call.operations = .ok added) {operation : Operation} (listed : operation ∈ added) :
    call.Adds operation := by
  cases call with
  | collection name | sort expressions | limit rows =>
      cases made
      cases listed
  | set text value =>
      rcases of_mem_added made listed with ⟨path, reached, rfl⟩
      exact .set value reached
  | change text value =>
      rcases of_mem_added made listed with ⟨path, reached, rfl⟩
      exact .change value reached
  | unset texts =>
      rcases Result.exists_of_mem_mapM made _ listed with ⟨text, inTexts, given⟩
      rcases Result.exists_of_bind_eq_ok given with ⟨path, reached, same⟩
      cases same
      exact .unset inTexts reached
  | patch document =>
      rcases of_mem_added made listed with ⟨patch, patched, rfl⟩
      rcases eq_object_of_patchOperation patched with ⟨members, rfl, rfl⟩
      exact .patch members
  | patchText text =>
      rw [Call.operations] at made
      split at made
      · cases made
      · next document read =>
          rcases of_mem_added made listed with ⟨patch, patched, rfl⟩
          rcases eq_object_of_patchOperation patched with ⟨members, rfl, rfl⟩
          exact .patchText read
  | arrayInsert text value =>
      rcases Result.exists_of_bind_eq_ok made with ⟨path, reached, behindPath⟩
      split at behindPath
      · cases behindPath
      · next indexed =>
          rcases of_mem_added behindPath listed with ⟨_, required, rfl⟩
          exact .arrayInsert reached (by simpa using indexed) (isAbsent_of_requireValue required)
  | arrayAppend text value =>
      rcases Result.exists_of_bind_eq_ok made with ⟨path, reached, behindPath⟩
      split at behindPath
      · cases behindPath
      · next named =>
          rcases of_mem_added behindPath listed with ⟨_, required, rfl⟩
          exact .arrayAppend reached (by simpa using named) (isAbsent_of_requireValue required)
  | merge text | arrayDelete text position => cases made

/-! ## Calls one after another -/

theorem operations_of_perform {statement next : Statement} {call : Call}
    (performed : statement.perform call = .ok next) :
    Exists fun added => call.operations = .ok added ∧
      next.operations = statement.operations ++ added := by
  cases call with
  | collection name =>
      cases performed
      exact ⟨[], rfl, (List.append_nil _).symm⟩
  | sort expressions =>
      rcases Result.exists_of_bind_eq_ok performed with ⟨sort, _, same⟩
      cases same
      exact ⟨[], rfl, (List.append_nil _).symm⟩
  | limit rows =>
      rw [perform] at performed
      split at performed
      · cases performed
      · cases performed
        exact ⟨[], rfl, (List.append_nil _).symm⟩
  | set | change | unset | patch | patchText | arrayInsert | arrayAppend | merge | arrayDelete =>
      rcases Result.exists_of_bind_eq_ok performed with ⟨added, made, same⟩
      cases same
      exact ⟨added, made, rfl⟩

theorem forall_operations_performAll {holds : Operation -> Prop} {calls : List Call}
    (each : forall call, call ∈ calls -> forall operation, call.Adds operation ->
      holds operation) :
    forall statement : Statement,
      (forall operation, operation ∈ statement.operations -> holds operation) ->
      forall operation, operation ∈ (statement.performAll calls).operations ->
        holds operation := by
  induction calls with
  | nil => exact fun statement before => before
  | cons call rest ih =>
      intro statement before
      have parts := List.forall_mem_cons.mp each
      rw [performAll, List.foldl_cons]
      apply ih parts.2
      cases performed : statement.perform call with
      | error fault => exact before
      | ok next =>
          rcases operations_of_perform performed with ⟨added, made, together⟩
          have stillHolds : forall operation, operation ∈ next.operations -> holds operation := by
            intro operation listed
            rw [together] at listed
            rcases List.mem_append.mp listed with old | new
            · exact before operation old
            · exact parts.1 operation (adds_of_operations made new)
          exact stillHolds

end Statement
end Emend
