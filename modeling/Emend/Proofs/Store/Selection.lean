import Emend.Store.Selection

namespace Emend
namespace Store

/-!
# Laws of selection

Sorting moves positions about and a limit cuts the end off, so a selection
never repeats a position and never leaves the collection.
-/

theorem sortedPositions_perm (documents : List Json) (keys : List SortKey) :
    (sortedPositions documents keys).Perm (List.range documents.length) :=
  List.mergeSort_perm _ _

theorem select_sublist (documents : List Json) (keys : List SortKey) (limit : Option UInt64) :
    (select documents keys limit).Sublist (sortedPositions documents keys) := by
  cases limit with
  | none => exact List.Sublist.refl _
  | some rows => exact List.take_sublist _ _

theorem select_nodup (documents : List Json) (keys : List SortKey) (limit : Option UInt64) :
    (select documents keys limit).Nodup :=
  ((sortedPositions_perm documents keys).nodup_iff.mpr List.nodup_range).sublist
    (select_sublist documents keys limit)

theorem lt_of_mem_select {documents : List Json} {keys : List SortKey} {limit : Option UInt64}
    {position : Nat} (chosen : position ∈ select documents keys limit) :
    position < documents.length := by
  have sorted := (select_sublist documents keys limit).mem chosen
  exact List.mem_range.mp ((sortedPositions_perm documents keys).mem_iff.mp sorted)

/-! ## Limits without effect -/

/-- A limit that no position is cut off by. -/
theorem select_perm_range {documents : List Json} {limit : Option UInt64}
    (spare : forall rows, limit = some rows -> documents.length ≤ rows.toNat)
    (keys : List SortKey) : (select documents keys limit).Perm (List.range documents.length) := by
  cases limit with
  | none => exact sortedPositions_perm documents keys
  | some rows =>
      have all : (sortedPositions documents keys).length ≤ rows.toNat := by
        rw [(sortedPositions_perm documents keys).length_eq, List.length_range]
        exact spare rows rfl
      rw [select, List.take_of_length_le all]
      exact sortedPositions_perm documents keys

/-! ## Selections that do not look into documents -/

theorem sortedPositions_nil (documents : List Json) :
    sortedPositions documents [] = List.range documents.length :=
  List.mergeSort_of_pairwise (List.pairwise_of_forall fun _ _ => rfl)

/-- Without sort keys, or without a limit, only the number of documents decides which of them
are selected. -/
theorem select_perm_of_length {documents others : List Json} {keys : List SortKey}
    {limit : Option UInt64} (steady : keys = [] ∨ limit = none)
    (lengths : documents.length = others.length) :
    (select documents keys limit).Perm (select others keys limit) := by
  rcases steady with unsorted | unlimited
  · subst keys
    simp only [select, sortedPositions_nil, lengths, List.Perm.refl]
  · have spare : forall rows, limit = some rows -> documents.length ≤ rows.toNat := by
      intro rows limited
      rw [unlimited] at limited
      cases limited
    have whole := select_perm_range spare keys
    rw [lengths] at spare whole
    exact whole.trans (select_perm_range spare keys).symm

end Store
end Emend
