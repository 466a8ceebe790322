import Mathlib
import Emend.Proofs.Path.Grammar
import Emend.Proofs.Statement.Compile

namespace Emend

/-!
# Checks that are made twice

A call checks its path as soon as it comes in, and compilation checks the operation that the
call has added.  An update is validated once more where it is received, since it need not come
from a compiler.  The checks are written apart from each other, each with an order of its own,
and here they are shown to decide alike, fault by fault.
-/

/-! ## Quoted paths -/

/-- The fault with another text for the path in its message. -/
def PathFault.quoting (text : String) : PathFault -> PathFault
  | .insertWithoutIndex _ => .insertWithoutIndex text
  | .appendToElement _ => .appendToElement text
  | .malformed source cause => .malformed source cause
  | .emptySortExpression => .emptySortExpression
  | .sortDirection word expression => .sortDirection word expression
  | .sortExcess word expression => .sortExcess word expression

namespace Fault

/-- The fault with another text for the path, if its message is about the shape of a path. -/
def quoting (text : String) : Fault -> Fault
  | .path cause => .path (cause.quoting text)
  | .emptyPath place => .emptyPath place
  | .negativeLimit rows => .negativeLimit rows
  | .missingValue place => .missingValue place
  | .emptyStatement => .emptyStatement
  | .unsupported call => .unsupported call
  | .document cause => .document cause

/-- The faults are of one kind, and nothing but the message about the shape of a path may tell
them apart. -/
inductive Matches : Fault -> Fault -> Prop where
  | same (fault : Fault) : Matches fault fault
  | path (left right : PathFault) : Matches (.path left) (.path right)

theorem quoting_matches (text : String) (fault : Fault) : (fault.quoting text).Matches fault := by
  cases fault with
  | path cause => exact .path _ _
  | emptyPath | negativeLimit | missingValue | emptyStatement | unsupported | document =>
      exact .same _

end Fault

namespace Statement

/-! ## Calls with one path -/

/-- The operations that name their place by a path. -/
inductive Placed where
  | set
  | change
  | unset
  | arrayInsert
  | arrayAppend
  deriving DecidableEq

namespace Placed

/-- The call with the text of the path. -/
def call : Placed -> String -> Payload -> Call
  | .set, text, value => .set text value
  | .change, text, value => .change text value
  | .unset, text, _ => .unset [text]
  | .arrayInsert, text, value => .arrayInsert text value
  | .arrayAppend, text, value => .arrayAppend text value

/-- The operation at the path itself, as it comes from elsewhere. -/
def operation : Placed -> Path -> Payload -> Operation
  | .set, path, value => .set path value
  | .change, path, value => .change path value
  | .unset, path, _ => .unset path
  | .arrayInsert, path, value => .arrayInsert path value
  | .arrayAppend, path, value => .arrayAppend path value

/-- The operation that the call adds, in which setting an absent value is removing. -/
def added : Placed -> Path -> Payload -> Operation
  | .set, path, value => setOperation path value
  | .change, path, value => .change path value
  | .unset, path, _ => .unset path
  | .arrayInsert, path, value => .arrayInsert path value
  | .arrayAppend, path, value => .arrayAppend path value

theorem operations_call_of_error (placed : Placed) {text : String} (value : Payload) {fault : Fault}
    (unread : Path.parseAllowingRoot text = .error fault) :
    (placed.call text value).operations = .error fault := by
  have unreached : forall kind, target kind text = .error fault := by
    intro kind
    rw [target, Path.parseFor, unread]
    rfl
  cases placed with
  | unset =>
      rw [call, Call.operations, List.mapM_cons, unreached]
      rfl
  | set | change | arrayInsert | arrayAppend =>
      rw [call, Call.operations, unreached]
      rfl

/-- With its path read, a call checks the operation as it would be checked if it came from
elsewhere, and quotes the text that it was given in place of the canonical one. -/
theorem operations_call_of_ok (placed : Placed) {text : String} (value : Payload) {path : Path}
    (read : Path.parseAllowingRoot text = .ok path) :
    (placed.call text value).operations =
      ((placed.operation path value).check.mapError (Fault.quoting text)).map fun _ =>
        [placed.added path value] := by
  cases root : path.isRoot with
  | true =>
      have unreached : forall kind, target kind text = .error (.emptyPath (.operation kind)) := by
        intro kind
        rw [target, Path.parseFor, read]
        exact if_pos root
      have refused : forall kind, Operation.check.belowRoot kind path =
          .error (.emptyPath (.operation kind)) := fun kind => if_pos root
      cases placed with
      | unset =>
          rw [call, Call.operations, List.mapM_cons, unreached, operation, Operation.check, refused]
          rfl
      | set | change | arrayInsert | arrayAppend =>
          rw [call, Call.operations, unreached, operation, Operation.check, refused]
          rfl
  | false =>
      have reached : forall kind, target kind text = .ok path :=
        fun kind => Path.parseFor_eq_ok_iff.mpr ⟨read, root⟩
      have accepted : forall kind, Operation.check.belowRoot kind path = .ok () :=
        fun kind => if_neg (Bool.eq_false_iff.mp root)
      cases placed with
      | set | change =>
          rw [call, Call.operations, reached, operation, Operation.check, accepted]
          rfl
      | unset =>
          rw [call, Call.operations, List.mapM_cons, reached, operation, Operation.check, accepted]
          rfl
      | arrayInsert | arrayAppend =>
          rw [call, Call.operations, reached, operation, Operation.check, accepted]
          cases shape : path.endsWithIndex <;> cases value <;>
            simp only [bind, Except.bind, shape] <;> rfl

theorem perform_call (placed : Placed) (statement : Statement) (text : String) (value : Payload) :
    statement.perform (placed.call text value) =
      (placed.call text value).operations >>= fun added =>
        pure { statement with operations := statement.operations ++ added } := by
  cases placed <;> rfl

theorem perform_call_of_ok (placed : Placed) (statement : Statement) {text : String}
    (value : Payload) {path : Path} (read : Path.parseAllowingRoot text = .ok path) :
    statement.perform (placed.call text value) =
      ((placed.operation path value).check.mapError (Fault.quoting text)).map fun _ =>
        { statement with operations := statement.operations ++ [placed.added path value] } := by
  rw [perform_call, operations_call_of_ok placed value read]
  cases (placed.operation path value).check <;> rfl

end Placed

/-- A call with a path fails with the fault of the path if that cannot be read.  Otherwise it
succeeds exactly if the operation at the path would be accepted from elsewhere, and if it fails,
it is for the same fault, with the text as it was given where the other message quotes the
canonical text. -/
theorem perform_agrees_with_check (statement : Statement) (placed : Placed) (text : String)
    (value : Payload) :
    (forall fault, Path.parseAllowingRoot text = .error fault ->
      statement.perform (placed.call text value) = .error fault) ∧
    (forall path, Path.parseAllowingRoot text = .ok path ->
      ((Exists fun next => statement.perform (placed.call text value) = .ok next) ↔
        (placed.operation path value).check = .ok ()) ∧
      (forall called checked, statement.perform (placed.call text value) = .error called ->
        (placed.operation path value).check = .error checked ->
        called = checked.quoting text ∧ called.Matches checked)) := by
  constructor
  · intro fault unread
    rw [placed.perform_call, placed.operations_call_of_error value unread]
    rfl
  · intro path read
    rw [placed.perform_call_of_ok statement value read]
    cases (placed.operation path value).check with
    | ok accepted => exact ⟨⟨fun _ => rfl, fun _ => ⟨_, rfl⟩⟩, fun _ _ failed => (by cases failed)⟩
    | error refusal =>
        refine ⟨⟨?_, ?_⟩, ?_⟩
        · rintro ⟨next, succeeded⟩
          cases succeeded
        · intro accepted
          cases accepted
        · intro called checked failed refused
          cases failed
          cases refused
          exact ⟨rfl, Fault.quoting_matches text refusal⟩

/-- Among several faults the path comes first, then that it must not be the root, then its last
step, and then the value. -/
theorem perform_arrayInsert_faulty :
    empty.perform (.arrayInsert "a[" .absent) =
      .error (.path (.malformed "a[" (.unexpected .arrayIndex none 2))) ∧
    empty.perform (.arrayInsert "$" .absent) = .error (.emptyPath (.operation .arrayInsert)) ∧
    empty.perform (.arrayInsert "a" .absent) = .error (.path (.insertWithoutIndex "a")) ∧
    (Exists fun next => empty.perform (.set "a" .absent) = .ok next) := by
  have readA : Path.parseAllowingRoot "a" = .ok ⟨[.field "a"]⟩ := by cbv
  have readRoot : Path.parseAllowingRoot "$" = .ok .root :=
    Path.parseAllowingRoot_eq_ok_iff.mpr (Path.read_root (Or.inr rfl))
  have faulty := fun text => perform_agrees_with_check empty .arrayInsert text .absent
  refine ⟨(faulty "a[").1 _ (by cbv), ?_, ?_, ?_⟩
  · cases outcome : empty.perform (.arrayInsert "$" .absent) with
    | ok next => cases ((faulty "$").2 _ readRoot).1.mp ⟨next, outcome⟩
    | error called => exact congrArg _ (((faulty "$").2 _ readRoot).2 called _ outcome rfl).1
  · cases outcome : empty.perform (.arrayInsert "a" .absent) with
    | ok next => cases ((faulty "a").2 _ readA).1.mp ⟨next, outcome⟩
    | error called => exact congrArg _ (((faulty "a").2 _ readA).2 called _ outcome rfl).1
  · exact ((perform_agrees_with_check empty .set "a" .absent).2 _ readA).1.mpr rfl

/-! ## Compilation and validation -/

/-- A statement is refused by the compiler exactly if every update with its operations and its
sort expressions is refused by validation, and for the same fault: that it has no operations,
else that of the first operation that is refused, else that of the first sort expression that
cannot be read.  This also holds of the compiler that takes its notes between the checks.  What is
compiled has the parts of the statement and is valid. -/
theorem compile_agrees_with_validate {statement : Statement} {update : Update}
    (sameOperations : update.operations = statement.operations)
    (sameSort : update.sort = statement.sort) :
    statement.compile = statement.compileInOneWalk ∧
    (forall fault, statement.compile = .error fault ↔ update.validate = .error fault) ∧
    (forall fault, update.validate = .error fault ↔ update.Refused fault) ∧
    (forall compiled, statement.compile = .ok compiled ->
      compiled.operations = statement.operations ∧ compiled.sort = statement.sort ∧
      compiled.limit = statement.limit ∧ compiled.collection = statement.collection ∧
      compiled.validate = .ok ()) := by
  refine ⟨compile_eq_inOneWalk statement, ?_, update.validate_eq_error_iff, ?_⟩
  · intro fault
    rw [compile_eq update sameOperations sameSort]
    cases update.validate with
    | error refusal => exact ⟨fun failed => (by cases failed; rfl), fun failed => (by cases failed; rfl)⟩
    | ok valid => exact ⟨fun failed => (by cases failed), fun failed => (by cases failed)⟩
  · intro compiled succeeded
    have valid := validate_of_compile succeeded
    rw [eq_of_compile succeeded] at valid ⊢
    exact ⟨rfl, rfl, rfl, rfl, valid⟩

/-- Two operations that are refused, of which the first is not the first operation, and a sort
expression that cannot be read. -/
def faulty : Statement :=
  ⟨[.unset ⟨[.field "a"]⟩, .arrayAppend ⟨[.field "b"]⟩ .absent, .change .root .absent],
    ["a b"], some 3, some "c"⟩

/-- The same operations and sort expressions as they may be received. -/
def faultyUpdate : Update :=
  ⟨none, faulty.operations, faulty.sort, none, [.overrides 0 5 .root]⟩

/-- What is left of it without the operations that are refused and with a sort expression that
can be read. -/
def repaired : Statement :=
  ⟨[.unset ⟨[.field "a"]⟩], ["\x60a b\x60 desc"], some 3, some "c"⟩

theorem compile_faulty :
    faulty.compile = .error (.missingValue ⟨[.field "b"]⟩) ∧
    faultyUpdate.validate = .error (.missingValue ⟨[.field "b"]⟩) ∧
    (Exists fun compiled => repaired.compile = .ok compiled ∧
      compiled.operations = repaired.operations ∧ compiled.sort = repaired.sort ∧
      compiled.limit = some 3 ∧ compiled.collection = some "c" ∧ compiled.validate = .ok ()) := by
  have succeeded : repaired.compile =
      .ok ⟨some "c", repaired.operations, repaired.sort, some 3, []⟩ := by cbv
  have agrees := @compile_agrees_with_validate faulty faultyUpdate rfl rfl
  have refused : faultyUpdate.Refused (.missingValue ⟨[.field "b"]⟩) := by
    refine .operation ⟨[.unset ⟨[.field "a"]⟩], _, _, rfl, ?_, rfl⟩
    intro earlier listed
    rw [List.mem_singleton.mp listed]
    exact ⟨(), rfl⟩
  have invalid := (agrees.2.2.1 _).mpr refused
  refine ⟨(agrees.2.1 _).mpr invalid, invalid, _, succeeded, ?_⟩
  exact (@compile_agrees_with_validate repaired
    ⟨none, repaired.operations, repaired.sort, none, []⟩ rfl rfl).2.2.2 _ succeeded

end Statement
end Emend
