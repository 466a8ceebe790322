import Emend.Proofs.Statement.Calls
import Emend.Proofs.Statement.WellFormed
import Emend.Proofs.Update.Form
import Emend.Proofs.Update.Validity

namespace Emend
namespace Statement

/-!
# Compiled updates

The update of a statement has the parts of the statement, and it passes the
validation that a store makes of every update.  If the calls brought documents,
the values in it are documents.
-/

/-- Compilation is validation of the operations and the sort expressions, and takes the parts of
the statement over. -/
theorem compile_eq {statement : Statement} (update : Update)
    (sameOperations : update.operations = statement.operations)
    (sameSort : update.sort = statement.sort) :
    statement.compile = update.validate.map fun _ =>
      ⟨statement.collection, statement.operations, statement.sort, statement.limit,
        notesOn statement.operations⟩ := by
  rw [compile, Update.validate, Update.sortKeys, sameOperations, sameSort, Result.forM_discard]
  split
  · rfl
  · cases statement.operations.forM Operation.check with
    | error fault => rfl
    | ok checked => cases statement.sort.mapM SortKey.parse <;> rfl

/-- The notes on operations that are numbered from `index` on, each of which is checked before it
is noted. -/
def checkedNotesFrom (history : History) (index : Nat) : List Operation -> Except Fault (List Note)
  | [] => pure []
  | operation :: rest => do
      operation.check
      let others ← checkedNotesFrom (history.record index operation).2 (index + 1) rest
      pure ((history.record index operation).1 ++ others)

/-- Compilation with a single walk over the operations, which notes each of them as soon as it has
passed its check. -/
def compileInOneWalk (statement : Statement) : Except Fault Update := do
  if statement.operations.isEmpty then throw .emptyStatement
  let notes ← checkedNotesFrom .empty 0 statement.operations
  let _ ← statement.sort.mapM SortKey.parse
  pure ⟨statement.collection, statement.operations, statement.sort, statement.limit, notes⟩

theorem checkedNotesFrom_eq (operations : List Operation) :
    forall (history : History) (index : Nat), checkedNotesFrom history index operations =
      (operations.forM Operation.check).map fun _ => history.notesFrom index operations := by
  induction operations with
  | nil => exact fun _ _ => rfl
  | cons operation rest ih =>
      intro history index
      rw [checkedNotesFrom, ih, Result.forM_cons]
      cases operation.check with
      | error fault => rfl
      | ok done => cases rest.forM Operation.check <;> rfl

/-- Taking notes cannot fail, so it may wait until all operations are checked. -/
theorem compile_eq_inOneWalk (statement : Statement) :
    statement.compile = statement.compileInOneWalk := by
  rw [compile, compileInOneWalk, checkedNotesFrom_eq, Result.forM_discard]
  split
  · rfl
  · cases statement.operations.forM Operation.check with
    | error fault => rfl
    | ok checked => cases statement.sort.mapM SortKey.parse <;> rfl

theorem eq_of_compile {statement : Statement} {update : Update}
    (compiled : statement.compile = .ok update) :
    update = ⟨statement.collection, statement.operations, statement.sort, statement.limit,
      notesOn statement.operations⟩ := by
  rw [compile_eq ⟨none, statement.operations, statement.sort, none, []⟩ rfl rfl] at compiled
  rcases Result.exists_of_map_eq_ok compiled with ⟨_, _, same⟩
  exact same.symm

theorem validate_of_compile {statement : Statement} {update : Update}
    (compiled : statement.compile = .ok update) : update.validate = .ok () := by
  have parts := eq_of_compile compiled
  rw [compile_eq update (by rw [parts]) (by rw [parts])] at compiled
  rcases Result.exists_of_map_eq_ok compiled with ⟨_, valid, _⟩
  exact valid

theorem check_of_compile {statement : Statement} {update : Update}
    (compiled : statement.compile = .ok update) :
    forall operation, operation ∈ update.operations -> operation.check = .ok () :=
  (update.validate_eq_ok_iff.mp (validate_of_compile compiled)).2.1

/-! ## Documents -/

/-- The value that comes with a call is a document.  Texts need no condition,
since reading them makes documents. -/
def Call.BringsDocument : Call -> Prop
  | .set _ value | .change _ value | .arrayInsert _ value | .arrayAppend _ value =>
      value.toJson.WellFormed
  | .patch document => document.WellFormed
  | .collection _ | .sort _ | .limit _ | .unset _ | .patchText _ | .merge _ | .arrayDelete _ _ =>
      True

theorem wellFormed_operation_of_adds {call : Call} (brings : call.BringsDocument)
    {operation : Operation} (adds : call.Adds operation) : operation.WellFormed := by
  cases adds with
  | set value reached =>
      cases value with
      | absent => trivial
      | present value => exact brings
  | patchText read => exact wellFormed_ofText? read
  | unset => trivial
  | change | patch | arrayInsert | arrayAppend => exact brings

theorem wellFormed_of_compile {calls : List Call}
    (bring : forall call, call ∈ calls -> call.BringsDocument) {update : Update}
    (compiled : (empty.performAll calls).compile = .ok update) : update.WellFormed := by
  rw [eq_of_compile compiled]
  apply forall_operations_performAll
  · exact fun call called operation adds => wellFormed_operation_of_adds (bring call called) adds
  · intro operation listed
    cases listed

end Statement
end Emend
