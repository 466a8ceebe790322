import Mathlib.Data.List.Basic
import Emend.Proofs.Path.Reader
import Emend.Proofs.Update.Leaves

namespace Emend

/-!
# Laws of the history

Whatever an operation is, it does two things to the history.  Each path at
which it writes is answered with its own number from then on, and is no longer
held to be removed; each path that it removes is held to be so, behind all
older ones.  The history knows paths by their texts, which tells them apart
because no two paths have the same text.
-/

namespace Operation

/-- The paths at which an operation writes.  The array operations add to what
they find and write at none. -/
def writtenPaths : Operation -> List Path
  | .set path _ | .change path _ | .unset path => [path]
  | .patch document => (patchLeaves document).map Prod.fst
  | .arrayInsert _ _ | .arrayAppend _ _ => []

/-- The paths that a patch sets to null. -/
def removedPaths : Operation -> List Path
  | .patch document => ((patchLeaves document).filter fun leaf => leaf.2.isNull).map Prod.fst
  | .set _ _ | .change _ _ | .unset _ | .arrayInsert _ _ | .arrayAppend _ _ => []

end Operation

namespace History

/-! ## One path -/

theorem lastWrite?_write (history : History) (index : Nat) (path other : Path) :
    (history.write index path).lastWrite? other =
      if other = path then some index else history.lastWrite? other := by
  rw [lastWrite?, write, Members.get?_insert]
  by_cases same : other = path
  · rw [if_pos same, if_pos (congrArg Path.write same)]
  · rw [if_neg same, if_neg fun sameText => same (Path.eq_of_write_eq sameText)]
    rfl

theorem lastWrite?_writeLeaf (history : History) (index : Nat) (leaf : Path × Json)
    (other : Path) :
    (history.writeLeaf index leaf).lastWrite? other =
      if other = leaf.1 then some index else history.lastWrite? other := by
  rw [← lastWrite?_write, writeLeaf]
  split <;> rfl

theorem removals_writeLeaf (history : History) (index : Nat) (leaf : Path × Json) :
    (history.writeLeaf index leaf).removals =
      (history.removals.filter fun removal => removal.1 != leaf.1) ++
        if leaf.2.isNull then [(leaf.1, index)] else [] := by
  rw [writeLeaf]
  split
  · rfl
  · rw [List.append_nil]
    rfl

theorem removals_write (history : History) (index : Nat) (path : Path) :
    (history.write index path).removals =
      history.removals.filter fun removal => !([path] : List Path).contains removal.1 := by
  rw [write]
  apply List.filter_congr
  intro removal _
  rw [List.contains_cons, List.contains_nil, Bool.or_false]
  rfl

/-! ## All leaves of a patch -/

theorem recordLeaves_cons (history : History) (index : Nat) (leaf : Path × Json)
    (rest : List (Path × Json)) :
    history.recordLeaves index (leaf :: rest) =
      (history.overrideNote index leaf.1 ++
          ((history.writeLeaf index leaf).recordLeaves index rest).1,
        ((history.writeLeaf index leaf).recordLeaves index rest).2) := rfl

theorem lastWrite?_recordLeaves (index : Nat) (other : Path) (leaves : List (Path × Json)) :
    forall history : History,
      (history.recordLeaves index leaves).2.lastWrite? other =
        if other ∈ leaves.map Prod.fst then some index else history.lastWrite? other := by
  induction leaves with
  | nil =>
      intro history
      rw [List.map_nil, if_neg List.not_mem_nil]
      rfl
  | cons leaf rest ih =>
      intro history
      rw [recordLeaves_cons, ih, lastWrite?_writeLeaf, List.map_cons]
      by_cases later : other ∈ rest.map Prod.fst
      · rw [if_pos later, if_pos (List.mem_cons_of_mem _ later)]
      · rw [if_neg later]
        by_cases same : other = leaf.1
        · rw [if_pos same, if_pos (List.mem_cons.mpr (Or.inl same))]
        · have absent : ¬ other ∈ leaf.1 :: rest.map Prod.fst := by
            intro listed
            rcases List.mem_cons.mp listed with isLeaf | isLater
            · exact same isLeaf
            · exact later isLater
          rw [if_neg same, if_neg absent]

/-- Since no path is a leaf twice, no leaf is taken for rewritten by a later
leaf of the same patch. -/
theorem removals_recordLeaves (index : Nat) (leaves : List (Path × Json)) :
    (leaves.map Prod.fst).Nodup -> forall history : History,
      (history.recordLeaves index leaves).2.removals =
        (history.removals.filter fun removal => !(leaves.map Prod.fst).contains removal.1) ++
          (leaves.filter fun leaf => leaf.2.isNull).map fun leaf => (leaf.1, index) := by
  induction leaves with
  | nil =>
      intro _ history
      have all : (history.removals.filter fun removal =>
          !(([] : List (Path × Json)).map Prod.fst).contains removal.1) = history.removals :=
        List.filter_eq_self.mpr fun _ _ => rfl
      rw [all, List.filter_nil, List.map_nil, List.append_nil]
      rfl
  | cons leaf rest ih =>
      intro distinct history
      have parts := List.nodup_cons.mp distinct
      have older : ((history.removals.filter fun removal => removal.1 != leaf.1).filter
            fun removal => !(rest.map Prod.fst).contains removal.1) =
          history.removals.filter fun removal =>
            !((leaf :: rest).map Prod.fst).contains removal.1 := by
        rw [List.filter_filter]
        apply List.filter_congr
        intro removal _
        rw [List.map_cons, List.contains_cons, Bool.not_or, Bool.and_comm]
        rfl
      have own : ((if leaf.2.isNull then [(leaf.1, index)] else []).filter
            fun removal => !(rest.map Prod.fst).contains removal.1) =
          if leaf.2.isNull then [(leaf.1, index)] else [] := by
        apply List.filter_eq_self.mpr
        intro removal listed
        split at listed
        · rw [List.mem_singleton.mp listed, Bool.not_eq_true', List.contains_eq_mem]
          exact decide_eq_false parts.1
        · cases listed
      rw [recordLeaves_cons, ih parts.2, removals_writeLeaf, List.filter_append, older, own,
        List.append_assoc, List.filter_cons]
      split <;> rfl

/-- For the same reason no leaf overrides another one of its patch. -/
theorem notes_recordLeaves (index : Nat) (leaves : List (Path × Json)) :
    (leaves.map Prod.fst).Nodup -> forall history : History,
      (history.recordLeaves index leaves).1 =
        leaves.flatMap fun leaf => history.overrideNote index leaf.1 := by
  induction leaves with
  | nil => exact fun _ _ => rfl
  | cons leaf rest ih =>
      intro distinct history
      have parts := List.nodup_cons.mp distinct
      have unaffected : (rest.flatMap fun other =>
            (history.writeLeaf index leaf).overrideNote index other.1) =
          rest.flatMap fun other => history.overrideNote index other.1 := by
        apply List.flatMap_congr
        intro other listed
        have different : other.1 ≠ leaf.1 := by
          intro same
          exact parts.1 (same ▸ List.mem_map_of_mem listed)
        rw [overrideNote, lastWrite?_writeLeaf, if_neg different, overrideNote]
      rw [recordLeaves_cons, ih parts.2, unaffected, List.flatMap_cons]

/-! ## One operation -/

theorem lastWrite?_record (history : History) (index : Nat) (operation : Operation)
    (other : Path) :
    (history.record index operation).2.lastWrite? other =
      if other ∈ operation.writtenPaths then some index else history.lastWrite? other := by
  cases operation with
  | patch document => exact lastWrite?_recordLeaves index other (patchLeaves document) history
  | set path value =>
      simp only [Operation.writtenPaths, List.mem_singleton]
      exact lastWrite?_write history index path other
  | change path value =>
      simp only [Operation.writtenPaths, List.mem_singleton]
      exact lastWrite?_write history index path other
  | unset path =>
      simp only [Operation.writtenPaths, List.mem_singleton]
      exact lastWrite?_write history index path other
  | arrayInsert path value =>
      simp only [Operation.writtenPaths, List.not_mem_nil, if_false]
      rfl
  | arrayAppend path value =>
      simp only [Operation.writtenPaths, List.not_mem_nil, if_false]
      rfl

theorem removals_record (history : History) (index : Nat) (operation : Operation)
    (wellFormed : forall document, operation = .patch document ->
      (Json.object document).WellFormed) :
    (history.record index operation).2.removals =
      (history.removals.filter fun removal => !operation.writtenPaths.contains removal.1) ++
        operation.removedPaths.map fun path => (path, index) := by
  have kept : (history.removals.filter fun removal => !([] : List Path).contains removal.1) =
      history.removals := List.filter_eq_self.mpr fun _ _ => rfl
  cases operation with
  | patch document =>
      have distinct := nodup_patchLeaves (wellFormed document rfl)
      rw [Operation.removedPaths, List.map_map]
      exact removals_recordLeaves index (patchLeaves document) distinct history
  | set path value =>
      rw [Operation.removedPaths, List.map_nil, List.append_nil]
      exact removals_write history index path
  | change path value =>
      rw [Operation.removedPaths, List.map_nil, List.append_nil]
      exact removals_write history index path
  | unset path =>
      rw [Operation.removedPaths, List.map_nil, List.append_nil]
      exact removals_write history index path
  | arrayInsert path value =>
      rw [Operation.removedPaths, List.map_nil, List.append_nil, Operation.writtenPaths, kept]
      rfl
  | arrayAppend path value =>
      rw [Operation.removedPaths, List.map_nil, List.append_nil, Operation.writtenPaths, kept]
      rfl

end History
end Emend
