import Emend.Proofs.Result
import Emend.Update

namespace Emend
namespace Update

/-!
# Validity of updates

Validation goes through the operations and then through the sort expressions, and stops at
the first fault.  That it finds none does not depend on their order: an update is valid if it
has operations, each of them is accepted by itself, and the sort expressions can be read.
Which fault it reports does depend on it.
-/

theorem validate_eq_ok_iff (update : Update) :
    update.validate = .ok () ↔
      update.operations ≠ [] ∧
      (forall operation, operation ∈ update.operations -> operation.check = .ok ()) ∧
      Exists fun keys => update.sortKeys = .ok keys := by
  rw [validate]
  cases operations : update.operations with
  | nil =>
      rw [if_pos List.isEmpty_nil]
      constructor
      · intro refused
        cases refused
      · rintro ⟨present, _⟩
        exact absurd rfl present
  | cons first rest =>
      rw [← Result.forM_eq_ok_iff]
      constructor
      · intro valid
        rcases Result.exists_of_bind_eq_ok valid with ⟨_, checked, behindChecks⟩
        rcases Result.exists_of_bind_eq_ok behindChecks with ⟨keys, read, _⟩
        exact ⟨List.cons_ne_nil first rest, checked, keys, read⟩
      · rintro ⟨_, checked, keys, read⟩
        simp only [List.isEmpty_cons, Bool.false_eq_true, if_false, checked, read]
        rfl

/-- The fault for which validation refuses an update. -/
inductive Refused (update : Update) : Fault -> Prop where
  | empty (none : update.operations = []) : Refused update .emptyStatement
  | operation {fault : Fault}
      (first : Result.FirstFault Operation.check update.operations fault) : Refused update fault
  | sort {fault : Fault} (present : update.operations ≠ [])
      (accepted : forall operation, operation ∈ update.operations -> operation.check = .ok ())
      (first : Result.FirstFault SortKey.parse update.sort fault) : Refused update fault

theorem validate_eq_error_iff (update : Update) (fault : Fault) :
    update.validate = .error fault ↔ update.Refused fault := by
  constructor
  · intro failed
    rw [validate] at failed
    split at failed
    · next none =>
        cases failed
        exact .empty (List.isEmpty_iff.mp none)
    · next present =>
        have filled : update.operations ≠ [] := fun none => present (List.isEmpty_iff.mpr none)
        cases checked : update.operations.forM Operation.check with
        | error refusal =>
            rw [checked] at failed
            cases failed
            exact .operation (Result.forM_eq_error_iff.mp checked)
        | ok done =>
            rw [checked] at failed
            exact .sort filled (Result.forM_eq_ok_iff.mp checked)
              (Result.mapM_eq_error_iff.mp (Result.eq_error_of_bind_pure failed))
  · intro refused
    cases refused with
    | empty none =>
        rw [validate, none]
        rfl
    | operation first =>
        have present : ¬ update.operations.isEmpty = true := by
          intro none
          rw [List.isEmpty_iff.mp none] at first
          exact Result.not_firstFault_nil _ _ first
        rw [validate, if_neg present, Result.forM_eq_error_iff.mpr first]
        rfl
    | sort present accepted first =>
        have unread : update.sortKeys = .error fault := Result.mapM_eq_error_iff.mpr first
        rw [validate, if_neg (fun none => present (List.isEmpty_iff.mp none)),
          Result.forM_eq_ok_iff.mpr accepted, unread]
        rfl

end Update
end Emend
