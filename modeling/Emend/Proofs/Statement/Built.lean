import Mathlib
import Emend.Proofs.Path.Grammar
import Emend.Proofs.Statement.Compile

namespace Emend
namespace Statement

/-!
# Built statements

The calls that build a statement and the compiler make their checks apart from each other,
the ones when a path or an expression comes in as a text, the other one on what the
statement holds in the end.  A statement is sound if it passes the checks of the compiler.
The empty statement is so, and each call keeps it so, because what the call has
checked implies what the compiler will.  Then compilation has one reason left to fail.
-/

/-! ## Sound statements -/

/-- The greatest limit that a call can set. -/
def greatestLimit : Nat := 9223372036854775807

/-- Everything in the statement passes the checks of compilation. -/
structure Sound (statement : Statement) : Prop where
  operations : forall operation, operation ∈ statement.operations -> operation.check = .ok ()
  values : forall path value, .set path value ∈ statement.operations -> value.isAbsent = false
  sort : forall expression, expression ∈ statement.sort ->
    Exists fun key => SortKey.parse expression = .ok key
  limit : forall rows, statement.limit = some rows -> rows.toNat ≤ greatestLimit

theorem sound_empty : empty.Sound where
  operations _ listed := by cases listed
  values _ _ listed := by cases listed
  sort _ listed := by cases listed
  limit _ present := by cases present

/-! ## What the calls have checked -/

theorem isRoot_of_target {kind : Operation.Kind} {text : String} {path : Path}
    (reached : target kind text = .ok path) : path.isRoot = false :=
  (Path.parseFor_eq_ok_iff.mp reached).2

theorem belowRoot_of_target {kind : Operation.Kind} {text : String} {path : Path}
    (reached : target kind text = .ok path) (named : Operation.Kind) :
    Operation.check.belowRoot named path = .ok () := by
  rw [Operation.check.belowRoot, isRoot_of_target reached]
  rfl

theorem check_of_adds {call : Call} {operation : Operation} (adds : call.Adds operation) :
    operation.check = .ok () := by
  cases adds with
  | set value reached => cases value <;> exact belowRoot_of_target reached _
  | change value reached => exact belowRoot_of_target reached _
  | unset listed reached => exact belowRoot_of_target reached _
  | patch members => rfl
  | patchText read => rfl
  | arrayInsert reached indexed present =>
      rw [Operation.check, belowRoot_of_target reached, indexed, present]
      rfl
  | arrayAppend reached named present =>
      rw [Operation.check, belowRoot_of_target reached, named, present]
      rfl

/-- Setting an absent value is removing, so no value that is set is absent. -/
theorem isAbsent_of_adds {call : Call} {path : Path} {value : Payload}
    (adds : call.Adds (.set path value)) : value.isAbsent = false := by
  generalize same : Operation.set path value = operation at adds
  cases adds with
  | set given reached =>
      cases given with
      | absent => cases same
      | present json =>
          cases same
          rfl
  | change | unset | patch | patchText | arrayInsert | arrayAppend => cases same

theorem exists_key_of_checkSort {expression kept : String} (checked : checkSort expression = .ok kept) :
    Exists fun key => SortKey.parse kept = .ok key := by
  rcases Result.exists_of_bind_eq_ok checked with ⟨key, read, same⟩
  cases same
  exact ⟨key, read⟩

theorem toNat_le_of_not_negative {rows : Int64} (notNegative : ¬ rows < 0) :
    rows.toUInt64.toNat ≤ greatestLimit := by
  have signed : 0 ≤ rows.toBitVec.toInt := by
    have ordered := Int64.le_iff_toInt_le.mp (Int64.not_lt.mp notNegative)
    rw [Int64.toInt_zero] at ordered
    exact ordered
  have word : rows.toUInt64.toNat = rows.toBitVec.toNat := rfl
  rw [BitVec.toInt_eq_toNat_cond] at signed
  rw [word, greatestLimit]
  split at signed <;> omega

/-! ## One call -/

/-- Only one of the calls sets the sort expressions, and it has parsed them. -/
theorem parses_of_perform {statement next : Statement} {call : Call}
    (parses : forall expression, expression ∈ statement.sort ->
      Exists fun key => SortKey.parse expression = .ok key)
    (performed : statement.perform call = .ok next) :
    forall expression, expression ∈ next.sort ->
      Exists fun key => SortKey.parse expression = .ok key := by
  cases call with
  | sort expressions =>
      rcases Result.exists_of_bind_eq_ok performed with ⟨kept, checked, same⟩
      cases same
      intro expression listed
      rcases Result.exists_of_mem_mapM checked expression listed with ⟨_, _, passed⟩
      exact exists_key_of_checkSort passed
  | collection name =>
      cases performed
      exact parses
  | limit rows =>
      rw [Statement.perform] at performed
      split at performed
      · cases performed
      · cases performed
        exact parses
  | set | change | unset | patch | patchText | arrayInsert | arrayAppend | merge | arrayDelete =>
      rcases Result.exists_of_bind_eq_ok performed with ⟨_, _, same⟩
      cases same
      exact parses

/-- Only one of the calls sets the limit, and never to a negative number. -/
theorem limit_le_of_perform {statement next : Statement} {call : Call}
    (bounded : forall rows, statement.limit = some rows -> rows.toNat ≤ greatestLimit)
    (performed : statement.perform call = .ok next) :
    forall rows, next.limit = some rows -> rows.toNat ≤ greatestLimit := by
  cases call with
  | limit rows =>
      rw [Statement.perform] at performed
      split at performed
      · cases performed
      · next notNegative =>
          cases performed
          intro kept same
          cases same
          exact toNat_le_of_not_negative notNegative
  | collection name =>
      cases performed
      exact bounded
  | sort | set | change | unset | patch | patchText | arrayInsert | arrayAppend | merge
  | arrayDelete =>
      rcases Result.exists_of_bind_eq_ok performed with ⟨_, _, same⟩
      cases same
      exact bounded

theorem Sound.perform {statement next : Statement} {call : Call} (sound : statement.Sound)
    (performed : statement.perform call = .ok next) : next.Sound := by
  rcases operations_of_perform performed with ⟨added, made, together⟩
  refine ⟨?_, ?_, parses_of_perform sound.sort performed, limit_le_of_perform sound.limit performed⟩
  · intro operation listed
    rw [together] at listed
    rcases List.mem_append.mp listed with old | new
    · exact sound.operations operation old
    · exact check_of_adds (adds_of_operations made new)
  · intro path value listed
    rw [together] at listed
    rcases List.mem_append.mp listed with old | new
    · exact sound.values path value old
    · exact isAbsent_of_adds (adds_of_operations made new)

/-! ## Calls one after another -/

theorem Sound.performAll {statement : Statement} (sound : statement.Sound) (calls : List Call) :
    (statement.performAll calls).Sound := by
  induction calls generalizing statement with
  | nil => exact sound
  | cons call rest ih =>
      rw [Statement.performAll, List.foldl_cons]
      apply ih
      cases performed : statement.perform call with
      | error fault => exact sound
      | ok next => exact sound.perform performed

/-- The operations that a call adds, none if it fails. -/
def Call.added (call : Call) : List Operation :=
  call.operations.toOption.getD []

theorem added_of_perform_error {statement : Statement} {call : Call} {fault : Fault}
    (failed : statement.perform call = .error fault) : call.added = [] := by
  cases call with
  | collection | sort | limit => rfl
  | set | change | unset | patch | patchText | arrayInsert | arrayAppend | merge | arrayDelete =>
      rw [Call.added, Result.eq_error_of_bind_pure failed]
      rfl

theorem operations_performAll (calls : List Call) :
    forall statement : Statement, (statement.performAll calls).operations =
      statement.operations ++ calls.flatMap Call.added := by
  induction calls with
  | nil =>
      intro statement
      rw [List.flatMap_nil, List.append_nil]
      rfl
  | cons call rest ih =>
      intro statement
      have first : ((statement.perform call).toOption.getD statement).operations =
          statement.operations ++ call.added := by
        cases performed : statement.perform call with
        | ok next =>
            rcases operations_of_perform performed with ⟨added, made, together⟩
            rw [Call.added, made]
            exact together
        | error fault =>
            rw [added_of_perform_error performed, List.append_nil]
            rfl
      rw [performAll, List.foldl_cons, List.flatMap_cons, ← List.append_assoc, ← first]
      exact ih _

/-! ## Compilation -/

theorem compile_of_no_operations {statement : Statement} (none : statement.operations = []) :
    statement.compile = .error .emptyStatement := by
  rw [compile, none]
  rfl

theorem Sound.forM_sort {statement : Statement} (sound : statement.Sound) :
    (statement.sort.forM fun expression => SortKey.parse expression >>= fun _ => pure ()) =
      .ok () := by
  apply Result.forM_eq_ok_iff.mpr
  intro expression listed
  rcases sound.sort expression listed with ⟨key, read⟩
  rw [read]
  rfl

/-- A sound statement with operations is compiled. -/
theorem Sound.compile {statement : Statement} (sound : statement.Sound)
    (filled : statement.operations ≠ []) :
    statement.compile = .ok ⟨statement.collection, statement.operations, statement.sort,
      statement.limit, notesOn statement.operations⟩ := by
  have checked : statement.operations.forM Operation.check = .ok () :=
    Result.forM_eq_ok_iff.mpr sound.operations
  rw [Statement.compile, if_neg (fun empty => filled (List.isEmpty_iff.mp empty)), checked,
    sound.forM_sort]
  rfl

/-- Whatever calls are made, the statement is sound and has the operations that the calls
added, in the order of the calls.  It fails to compile exactly if there are none, and
otherwise its update has its parts and passes validation. -/
theorem compile_of_calls (calls : List Call) :
    (empty.performAll calls).Sound ∧
    (empty.performAll calls).operations = calls.flatMap Call.added ∧
    ((empty.performAll calls).compile = .error .emptyStatement ↔ calls.flatMap Call.added = []) ∧
    (calls.flatMap Call.added ≠ [] -> Exists fun update =>
      (empty.performAll calls).compile = .ok update ∧ update.validate = .ok () ∧
      (Exists fun keys => update.sortKeys = .ok keys) ∧
      update.operations = calls.flatMap Call.added ∧
      update.sort = (empty.performAll calls).sort ∧
      update.limit = (empty.performAll calls).limit ∧
      update.collection = (empty.performAll calls).collection) := by
  have sound := sound_empty.performAll calls
  have operations : (empty.performAll calls).operations = calls.flatMap Call.added :=
    operations_performAll calls empty
  refine ⟨sound, operations, ⟨?_, ?_⟩, ?_⟩
  · intro failed
    by_contra filled
    rw [sound.compile (operations ▸ filled)] at failed
    cases failed
  · intro nothing
    exact compile_of_no_operations (operations.trans nothing)
  · intro filled
    have compiled := sound.compile (operations ▸ filled)
    exact ⟨_, compiled, validate_of_compile compiled,
      Result.exists_mapM_of_forM sound.forM_sort, operations, rfl, rfl, rfl⟩

/-- Calls of which every other one fails: the root is set, one of two paths is the root, a limit
is negative, an insertion names no element. -/
def mixedCalls : List Call :=
  [.set "a[0]" .absent, .set "$" (.ofInt64 1), .sort [" \x60b c\x60 DESC "], .unset ["x", ""],
    .limit 3, .limit (-3), .change "a" .absent, .arrayInsert "a" (.ofInt64 1)]

theorem compile_of_mixedCalls :
    mixedCalls.flatMap Call.added =
      [.unset ⟨[.field "a", .index 0]⟩, .change ⟨[.field "a"]⟩ .absent] ∧
    (empty.performAll mixedCalls).sort = ["\x60b c\x60 DESC"] ∧
    (empty.performAll mixedCalls).limit = some 3 ∧
    (Exists fun update => (empty.performAll mixedCalls).compile = .ok update ∧
      update.validate = .ok () ∧
      update.operations = [.unset ⟨[.field "a", .index 0]⟩, .change ⟨[.field "a"]⟩ .absent]) := by
  have added : mixedCalls.flatMap Call.added =
      [.unset ⟨[.field "a", .index 0]⟩, .change ⟨[.field "a"]⟩ .absent] := by
    cbv
  have sort : (empty.performAll mixedCalls).sort = ["\x60b c\x60 DESC"] := by
    decide +kernel
  have limit : (empty.performAll mixedCalls).limit = some 3 := by
    decide +kernel
  have filled : mixedCalls.flatMap Call.added ≠ [] := by
    rw [added]
    exact List.cons_ne_nil _ _
  rcases (compile_of_calls mixedCalls).2.2.2 filled with ⟨update, compiled, valid, _, same, _⟩
  exact ⟨added, sort, limit, update, compiled, valid, same.trans added⟩

end Statement
end Emend
