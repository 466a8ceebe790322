import Mathlib
import Emend.Proofs.Statement.Compile
import Emend.Proofs.Update.LookingBack

namespace Emend

/-!
# What the notes say

The pass over the operations keeps a history that forgets most of what it has
seen.  Its notes are those found by looking back, because after every operation
the history answers both questions as looking back over all operations would.
That is the invariant; one operation preserves it, and the notes on the
operation are read off it.
-/

namespace History

variable {operations : List Operation}

/-! ## The invariant of the pass -/

/-- After some operations the history answers the one question directly, and
holds the answers to the other in the order in which they are asked. -/
structure Remembers (history : History) (operations : List Operation) : Prop where
  lastWrite : forall path,
    history.lastWrite? path = writerBefore? operations operations.length path
  removals : history.removals = standingRemovals operations operations.length

theorem remembers_empty : Remembers empty [] :=
  ⟨fun _ => rfl, rfl⟩

theorem Remembers.record {history : History} (remembers : Remembers history operations)
    {operation : Operation}
    (wellFormed : forall document, operation = .patch document ->
      (Json.object document).WellFormed) :
    Remembers (history.record operations.length operation).2 (operations ++ [operation]) := by
  have count : (operations ++ [operation]).length = operations.length + 1 := by
    rw [List.length_append, List.length_singleton]
  constructor
  · intro path
    rw [lastWrite?_record, remembers.lastWrite, count, writerBefore?_snoc]
  · rw [removals_record history _ operation wellFormed, remembers.removals, count,
      standingRemovals_snoc]

theorem Remembers.removalAbove? {history : History} (remembers : Remembers history operations)
    (path : Path) :
    history.removalAbove? path = removerBefore? operations operations.length path := by
  rw [History.removalAbove?, remembers.removals, removerBefore?_eq_findRev?]

/-- The notes that the pass takes on an operation are the described ones. -/
theorem Remembers.notes {history : History} (remembers : Remembers history operations)
    {operation : Operation}
    (wellFormed : forall document, operation = .patch document ->
      (Json.object document).WellFormed) :
    (history.record operations.length operation).1 =
      described (operations ++ [operation]) operations.length := by
  have override : forall path, history.overrideNote operations.length path =
      overrideOf (operations ++ [operation]) operations.length path := by
    intro path
    have before : history.lastWrite? path =
        writerBefore? (operations ++ [operation]) operations.length path := by
      rw [remembers.lastWrite, writerBefore?_append operations [operation] (Nat.le_refl _)]
    cases found : history.lastWrite? path with
    | none => simp only [overrideNote, overrideOf, ← before, found]
    | some earlier => simp only [overrideNote, overrideOf, ← before, found]
  have remover : forall path, history.removalAbove? path =
      removerBefore? (operations ++ [operation]) operations.length path := by
    intro path
    rw [remembers.removalAbove?, removerBefore?_append operations [operation] (Nat.le_refl _)]
  rw [described, List.getElem?_concat_length]
  cases operation with
  | patch document =>
      refine (notes_recordLeaves _ _ (nodup_patchLeaves (wellFormed document rfl)) history).trans ?_
      exact List.flatMap_congr fun leaf _ => override leaf.1
  | unset path => exact override path
  | set path value =>
      simp only [restorationOr, ← override, ← remover]
      rfl
  | change path value =>
      simp only [restorationOr, ← override, ← remover]
      rfl
  | arrayInsert path value =>
      simp only [restorationOr, ← remover]
      rfl
  | arrayAppend path value =>
      simp only [restorationOr, ← remover]
      rfl

/-! ## Whole lists -/

theorem notesFrom_cons (history : History) (index : Nat) (operation : Operation)
    (rest : List Operation) :
    history.notesFrom index (operation :: rest) =
      (history.record index operation).1 ++
        (history.record index operation).2.notesFrom (index + 1) rest := by
  rw [notesFrom]

theorem Remembers.notesFrom (rest : List Operation) :
    forall (done : List Operation) (history : History), Remembers history done ->
      (forall document, .patch document ∈ rest -> (Json.object document).WellFormed) ->
      history.notesFrom done.length rest =
        (List.range' done.length rest.length).flatMap (described (done ++ rest)) := by
  induction rest with
  | nil =>
      intro done history _ _
      rfl
  | cons operation rest ih =>
      intro done history remembers wellFormed
      have here : forall document, operation = .patch document ->
          (Json.object document).WellFormed :=
        fun document same => wellFormed document (same ▸ List.mem_cons_self)
      have split : done ++ operation :: rest = (done ++ [operation]) ++ rest := by
        rw [List.append_assoc, List.singleton_append]
      have count : done.length + 1 = (done ++ [operation]).length := by
        rw [List.length_append, List.length_singleton]
      have first : described ((done ++ [operation]) ++ rest) done.length =
          described (done ++ [operation]) done.length :=
        described_append (done ++ [operation]) rest (by omega)
      rw [notesFrom_cons, remembers.notes here, List.length_cons, List.range'_succ,
        List.flatMap_cons, split, first, count,
        ih (done ++ [operation]) _ (remembers.record here)
          fun document listed => wellFormed document (List.mem_cons_of_mem _ listed)]

end History

theorem notesOn_eq_described {operations : List Operation}
    (wellFormed : forall document, .patch document ∈ operations ->
      (Json.object document).WellFormed) :
    notesOn operations =
      (List.range operations.length).flatMap (History.described operations) := by
  rw [notesOn, List.range_eq_range']
  exact History.Remembers.notesFrom operations [] .empty History.remembers_empty wellFormed

/-! ## Compiled statements -/

namespace Statement

/-- The notes of a compiled statement are the described ones, in the order of
the operations.  The leaves of a patch of which the description speaks are the
values without members that the patch holds.  No calls build a statement that
is not well-formed, unless they bring such a patch. -/
theorem notes_of_compile {statement : Statement} {update : Update}
    (wellFormed : statement.WellFormed) (compiled : statement.compile = .ok update) :
    update.notes = (List.range statement.operations.length).flatMap
        (History.described statement.operations) ∧
      forall document, .patch document ∈ statement.operations ->
        forall path leaf, (path, leaf) ∈ patchLeaves document ↔ IsLeaf document path leaf := by
  constructor
  · rw [eq_of_compile compiled]
    exact notesOn_eq_described wellFormed
  · intro document listed path leaf
    exact mem_patchLeaves_iff (wellFormed document listed) path leaf

/-- Two patches remove the same path.  What the first one removed is written in
between, what the second one removed is added to behind it. -/
def rewritten : Statement where
  operations := [
    .patch [("a", .object [("b", .null), ("c", .bool true)]), ("d", .null)],
    .set (Path.ofNames ["a", "b", "e"]) (.ofString "x"),
    .change (Path.ofNames ["a", "c"]) (.ofString "y"),
    .unset (Path.ofNames ["d"]),
    .patch [("a", .object [("b", .null)])],
    .arrayAppend (Path.ofNames ["a", "b"]) (.ofString "z"),
    .set (Path.ofNames ["d"]) (.ofString "w")]
  sort := []
  limit := none
  collection := none

theorem notes_rewritten :
    Exists fun update => rewritten.compile = .ok update ∧ update.notes = [
      .restoresPatchedNull 1 0 (Path.ofNames ["a", "b", "e"]),
      .overrides 2 0 (Path.ofNames ["a", "c"]),
      .overrides 3 0 (Path.ofNames ["d"]),
      .overrides 4 0 (Path.ofNames ["a", "b"]),
      .restoresPatchedNull 5 4 (Path.ofNames ["a", "b"]),
      .overrides 6 3 (Path.ofNames ["d"])] := by
  have wellFormed : rewritten.WellFormed := by
    intro document listed
    simp only [rewritten, List.mem_cons, Operation.patch.injEq, List.not_mem_nil, or_false,
      reduceCtorEq, false_or] at listed
    rcases listed with same | same <;> rw [same] <;>
      simp only [Json.WellFormed, Json.WellFormedMembers, Members.Sorted, and_true] <;> decide
  have compiled : rewritten.compile = .ok ⟨none, rewritten.operations, [], none,
      notesOn rewritten.operations⟩ := rfl
  refine ⟨_, compiled, (notes_of_compile wellFormed compiled).1.trans ?_⟩
  cbv

end Statement
end Emend
