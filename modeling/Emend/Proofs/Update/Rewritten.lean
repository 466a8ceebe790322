import Mathlib
import Emend.Proofs.Update.Notes

namespace Emend

/-!
# When a path is written again

Two operations write at the same path, and none between them does.  One note is taken on the
second one.  It is the note that the first one is overridden, unless a patch before the
second one has removed something above the path and nothing has been written there since.
Then each value that is set or changed at the path counts as the first one behind the
patch, even where the one before has been noted already, and the override goes unnoticed.
-/

namespace History

variable {operations : List Operation}

/-! ## Writing again -/

/-- Operations with two numbers replace what stands at a path, and no operation between them
writes at it. -/
structure Rewritten (operations : List Operation) (earlier later : Nat) (path : Path)
    (first second : Operation) : Prop where
  order : earlier < later
  firstFound : operations[earlier]? = some first
  secondFound : operations[later]? = some second
  firstReplaces : replaces first.kind = true
  secondReplaces : replaces second.kind = true
  firstPath : first.path = path
  secondPath : second.path = path
  between : forall index, earlier < index -> index < later -> path ∉ writtenBy operations index

/-- At a time a patch has removed a path or something above it, and what it removed has not
been written since. -/
def UnderRemoval (operations : List Operation) (time : Nat) (path : Path) : Prop :=
  Exists fun patch => Exists fun removed =>
    StaysRemoved operations time patch removed ∧ path.startsWith removed = true

theorem writtenPaths_of_replaces {operation : Operation} (replacing : replaces operation.kind = true) :
    operation.writtenPaths = [operation.path] := by
  cases operation with
  | set | change | unset => rfl
  | patch | arrayInsert | arrayAppend => cases replacing

theorem Rewritten.writerBefore? {earlier later : Nat} {path : Path} {first second : Operation}
    (rewritten : Rewritten operations earlier later path first second) :
    writerBefore? operations later path = some earlier := by
  have writes : path ∈ writtenBy operations earlier := by
    rw [writtenBy, rewritten.firstFound, Option.map_some, Option.getD_some,
      writtenPaths_of_replaces rewritten.firstReplaces, rewritten.firstPath]
    exact List.mem_singleton_self path
  apply (latest?_eq_some_iff _ _ _).mpr
  refine ⟨rewritten.order, List.contains_iff_mem.mpr writes, ?_⟩
  intro index above below
  rw [List.contains_eq_mem]
  exact decide_eq_false (rewritten.between index above below)

/-! ## Removals -/

theorem latest?_eq_none_iff (bound : Nat) (holds : Nat -> Bool) :
    latest? bound holds = none ↔ forall index, index < bound -> holds index = false := by
  rw [latest?, List.findRev?_eq_find?_reverse, List.find?_eq_none]
  constructor
  · intro absent index below
    exact Bool.eq_false_iff.mpr (absent index (List.mem_reverse.mpr (List.mem_range.mpr below)))
  · intro absent index listed
    exact Bool.eq_false_iff.mp (absent index (List.mem_range.mp (List.mem_reverse.mp listed)))

theorem removerBefore?_eq_none_iff (operations : List Operation) (time : Nat) (path : Path) :
    removerBefore? operations time path = none ↔ ¬ UnderRemoval operations time path := by
  rw [removerBefore?, latest?_eq_none_iff]
  constructor
  · rintro absent ⟨patch, removed, stays, above⟩
    have none := List.any_eq_false.mp (absent patch stays.1) removed stays.2.1
    rw [decide_eq_true stays, above] at none
    exact none rfl
  · intro free patch before
    apply List.any_eq_false.mpr
    intro removed listed found
    rw [Bool.and_eq_true_iff, decide_eq_true_iff] at found
    exact free ⟨patch, removed, found⟩

/-! ## The note on the second operation -/

/-- The second of two operations at a path is noted for the path above which, or for the
operation over which, it writes. -/
theorem Rewritten.described {earlier later : Nat} {path : Path} {first second : Operation}
    (rewritten : Rewritten operations earlier later path first second) :
    described operations later =
      if second.kind = .unset then
        [.overrides (UInt64.ofNat later) (UInt64.ofNat earlier) path]
      else
        restorationOr operations later path
          [.overrides (UInt64.ofNat later) (UInt64.ofNat earlier) path] := by
  have overriding : overrideOf operations later path =
      [.overrides (UInt64.ofNat later) (UInt64.ofNat earlier) path] := by
    rw [overrideOf, rewritten.writerBefore?]
  have replacing := rewritten.secondReplaces
  rw [History.described, rewritten.secondFound, ← overriding, ← rewritten.secondPath]
  cases second with
  | set | change | unset => rfl
  | patch | arrayInsert | arrayAppend => cases replacing

/-- One note is taken on the second operation, and it tells the override exactly if the
operation removes, or no patch stands in the way. -/
theorem Rewritten.exists_note {earlier later : Nat} {path : Path} {first second : Operation}
    (rewritten : Rewritten operations earlier later path first second) :
    Exists fun note => History.described operations later = [note] ∧
      (note = .overrides (UInt64.ofNat later) (UInt64.ofNat earlier) path ↔
        second.kind = .unset ∨ ¬ UnderRemoval operations later path) := by
  rw [rewritten.described, ← removerBefore?_eq_none_iff]
  by_cases removes : second.kind = .unset
  · rw [if_pos removes]
    exact ⟨_, rfl, fun _ => Or.inl removes, fun _ => rfl⟩
  · rw [if_neg removes, restorationOr]
    cases removerBefore? operations later path with
    | none => exact ⟨_, rfl, fun _ => Or.inr rfl, fun _ => rfl⟩
    | some patch =>
        refine ⟨_, rfl, ?_, ?_⟩
        · intro same
          cases same
        · rintro (impossible | impossible)
          · exact False.elim (removes impossible)
          · cases impossible

end History

/-! ## Notes up to an operation -/

/-- The notes on the first operations are those described for them in the whole list. -/
theorem notesOn_take {operations : List Operation}
    (wellFormed : forall document, .patch document ∈ operations ->
      (Json.object document).WellFormed) {count : Nat} (within : count ≤ operations.length) :
    notesOn (operations.take count) =
      (List.range count).flatMap (History.described operations) := by
  have length : (operations.take count).length = count := List.length_take_of_le within
  rw [notesOn_eq_described fun document listed => wellFormed document (List.mem_of_mem_take listed),
    length]
  apply List.flatMap_congr
  intro index listed
  have before : index < (operations.take count).length := by
    rw [length]
    exact List.mem_range.mp listed
  have described := History.described_append (operations.take count) (operations.drop count) before
  rw [List.take_append_drop] at described
  exact described.symm

theorem notesOn_take_prefix {operations : List Operation}
    (wellFormed : forall document, .patch document ∈ operations ->
      (Json.object document).WellFormed) {count : Nat} (within : count ≤ operations.length) :
    notesOn (operations.take count) <+: notesOn operations := by
  have split : List.range count ++ List.range' count (operations.length - count) =
      List.range operations.length := by
    have glued := @List.range'_append_1 0 count (operations.length - count)
    rw [Nat.zero_add, Nat.add_sub_cancel' within] at glued
    rw [List.range_eq_range', List.range_eq_range', glued]
  refine ⟨(List.range' count (operations.length - count)).flatMap (History.described operations), ?_⟩
  rw [notesOn_take wellFormed within, notesOn_eq_described wellFormed, ← List.flatMap_append,
    split]

namespace Statement

/-- One note is taken on an operation that writes where an earlier one did, with no write there
between them.  It is the note that the one overrides the other if the one removes, or no
patch has removed anything above the path that has not been written since; and only then. -/
theorem overrides_of_rewritten_iff {statement : Statement} {update : Update}
    (wellFormed : statement.WellFormed) (compiled : statement.compile = .ok update)
    {earlier later : Nat} {path : Path} {first second : Operation}
    (rewritten : History.Rewritten statement.operations earlier later path first second) :
    Exists fun note =>
      notesOn (statement.operations.take (later + 1)) =
        notesOn (statement.operations.take later) ++ [note] ∧
      notesOn (statement.operations.take (later + 1)) <+: update.notes ∧
      (note = .overrides (UInt64.ofNat later) (UInt64.ofNat earlier) path ↔
        second.kind = .unset ∨ ¬ History.UnderRemoval statement.operations later path) := by
  rcases rewritten.exists_note with ⟨note, described, tells⟩
  have within : later < statement.operations.length :=
    (List.getElem?_eq_some_iff.mp rewritten.secondFound).1
  refine ⟨note, ?_, ?_, tells⟩
  · rw [notesOn_take wellFormed within, notesOn_take wellFormed (Nat.le_of_lt within),
      List.range_succ, List.flatMap_append, List.flatMap_cons, List.flatMap_nil, List.append_nil,
      described]
  · rw [eq_of_compile compiled]
    exact notesOn_take_prefix wellFormed within

/-- The path of the member `b` of the member `a`. -/
def bOfA : Path :=
  Path.ofNames ["a", "b"]

/-- What a patch removes is written, added to and written again, while another patch removes
something beside it. -/
def writtenAgain : Statement where
  operations := [
    .patch [("a", .object [("b", .null)])],
    .set bOfA (.ofInt64 1),
    .patch [("a", .object [("c", .null)])],
    .arrayAppend bOfA (.ofInt64 2),
    .change bOfA (.ofInt64 3)]
  sort := []
  limit := none
  collection := none

theorem overrides_writtenAgain :
    Exists fun update => writtenAgain.compile = .ok update ∧
      History.Rewritten writtenAgain.operations 1 4 bOfA (.set bOfA (.ofInt64 1))
        (.change bOfA (.ofInt64 3)) ∧
      update.notes = [.restoresPatchedNull 1 0 bOfA, .overrides 4 1 bOfA] ∧
      notesOn writtenAgain.operations =
        notesOn (writtenAgain.operations.take 4) ++ [.overrides 4 1 bOfA] := by
  have wellFormed : writtenAgain.WellFormed := by
    intro document listed
    simp only [writtenAgain, List.mem_cons, Operation.patch.injEq, List.not_mem_nil, or_false,
      reduceCtorEq, false_or] at listed
    rcases listed with same | same <;> rw [same] <;> decide
  have compiled : writtenAgain.compile = .ok ⟨none, writtenAgain.operations, [], none,
      notesOn writtenAgain.operations⟩ := rfl
  have again : History.Rewritten writtenAgain.operations 1 4 bOfA (.set bOfA (.ofInt64 1))
      (.change bOfA (.ofInt64 3)) := by
    refine ⟨by decide, rfl, rfl, rfl, rfl, rfl, rfl, fun index after before => ?_⟩
    have cases : index = 2 ∨ index = 3 := by omega
    rcases cases with same | same <;> rw [same] <;> decide
  have free : ¬ History.UnderRemoval writtenAgain.operations 4 bOfA :=
    (History.removerBefore?_eq_none_iff _ _ _).mp (by cbv)
  rcases overrides_of_rewritten_iff wellFormed compiled again with ⟨note, taken, _, tells⟩
  rw [tells.mpr (Or.inr free)] at taken
  exact ⟨_, compiled, again, by cbv, taken⟩

/-- A patch removes a document, and one of its members is written twice. -/
def writtenBelow : List Call :=
  [.patch (.object [("a", .null)]), .set "a.b" (.ofInt64 1), .set "a.b" (.ofInt64 2)]

def writtenBelowUpdate : Update :=
  ⟨none, [.patch [("a", .null)], .set bOfA (.ofInt64 1), .set bOfA (.ofInt64 2)], [], none,
    [.restoresPatchedNull 1 0 bOfA, .restoresPatchedNull 2 0 bOfA]⟩

/-- Both values count as the first one behind the patch, and no note tells that the second one
overrides the first. -/
theorem not_overrides_writtenBelow :
    (empty.performAll writtenBelow).compile = .ok writtenBelowUpdate ∧
      History.Rewritten writtenBelowUpdate.operations 1 2 bOfA (.set bOfA (.ofInt64 1))
        (.set bOfA (.ofInt64 2)) ∧
      .overrides 2 1 bOfA ∉ writtenBelowUpdate.notes := by
  refine ⟨by cbv, ⟨by decide, rfl, rfl, rfl, rfl, rfl, rfl, ?_⟩, ?_⟩
  · intro index after before
    omega
  · intro noted
    rcases List.mem_pair.mp noted with same | same <;> cases same

end Statement
end Emend
