import Mathlib
import Emend.Proofs.Number.Nearest
import Emend.Proofs.Store.FirstDocuments

namespace Emend

/-!
# The order of integers

All numbers are compared as binary64 numbers, so integers stand as the binary64 numbers that
are nearest to them.  Rounding keeps the order, but it may make neighbours equal: two integers
never stand the other way round, and whether they tie is up to their nearest numbers.  They
stand by their values where rounding changes neither, as it does not up to `2 ^ 53`.

What a sort key and a limit choose among integers is told by the nearest numbers too.
-/

theorem compare_eq_of_lt_iff {left right first second : Int} (less : left < right ↔ first < second)
    (greater : right < left ↔ second < first) : compare left right = compare first second := by
  rcases Int.lt_trichotomy first second with below | same | above
  · rw [Int.compare_eq_lt.mpr below, Int.compare_eq_lt.mpr (less.mpr below)]
  · have equal : left = right := by omega
    rw [Int.compare_eq_eq.mpr same, Int.compare_eq_eq.mpr equal]
  · rw [Int.compare_eq_gt.mpr above, Int.compare_eq_gt.mpr (greater.mpr above)]

namespace Integer64

/-- Rounding does not change the integer. -/
def Exact (value : Integer64) : Prop :=
  Exists fun number : Binary64 => number.quantity = Binary64.ofWhole value.value

theorem exact_of_le {value : Integer64} (small : value.value.natAbs ≤ 2 ^ 53) : value.Exact :=
  Binary64.exists_quantity_eq_ofWhole small

theorem Exact.quantity_nearest {value : Integer64} (exact : value.Exact) :
    value.nearest.quantity = Binary64.ofWhole value.value := by
  rcases exact with ⟨number, same⟩
  exact (value.nearestTo_nearest.quantity_eq same).trans same

/-- Rounding keeps the order. -/
theorem quantity_nearest_le {left right : Integer64} (less : left.value ≤ right.value) :
    left.nearest.quantity ≤ right.nearest.quantity := by
  rcases Int.lt_or_eq_of_le less with below | same
  · exact left.nearestTo_nearest.quantity_le right.nearestTo_nearest below
  · cases left
    cases right
    cases same
    exact Int.le_refl _

end Integer64

namespace Json

variable {left right : Integer64}

theorem order_integer (left right : Integer64) :
    order (.number (.integer left)) (.number (.integer right)) =
      compare left.nearest.quantity right.nearest.quantity := by
  rw [order, left.position_nearest, right.position_nearest]
  exact compare_eq_of_lt_iff Binary64.quantity_lt_iff.symm Binary64.quantity_lt_iff.symm

/-- Integers that do not tie stand by their values. -/
theorem order_integer_of_ne
    (apart : order (.number (.integer left)) (.number (.integer right)) ≠ .eq) :
    order (.number (.integer left)) (.number (.integer right)) =
      compare left.value right.value := by
  rw [order_integer] at apart ⊢
  have different : left.nearest.quantity ≠ right.nearest.quantity :=
    fun same => apart (Int.compare_eq_eq.mpr same)
  rcases Int.lt_trichotomy left.value right.value with below | same | above
  · have kept := Integer64.quantity_nearest_le (Int.le_of_lt below)
    exact compare_eq_of_lt_iff (by omega) (by omega)
  · have kept := Integer64.quantity_nearest_le (Int.le_of_eq same)
    have keptToo := Integer64.quantity_nearest_le (Int.le_of_eq same.symm)
    exact absurd (Int.le_antisymm kept keptToo) different
  · have kept := Integer64.quantity_nearest_le (Int.le_of_lt above)
    exact compare_eq_of_lt_iff (by omega) (by omega)

theorem order_integer_of_exact (exactLeft : left.Exact) (exactRight : right.Exact) :
    order (.number (.integer left)) (.number (.integer right)) =
      compare left.value right.value := by
  rw [order_integer, exactLeft.quantity_nearest, exactRight.quantity_nearest]
  exact compare_eq_of_lt_iff Binary64.ofWhole_lt_iff.symm Binary64.ofWhole_lt_iff.symm

end Json

namespace Store

/-- By one ascending sort key no document that is left out is before one that is selected. -/
theorem order_ne_gt_of_not_mem_select {documents : List Json} {path : Path} {limit : Option UInt64}
    {chosen left : Nat} (selected : chosen ∈ select documents [⟨path, true⟩] limit)
    (inRange : left < documents.length)
    (leftOut : left ∉ select documents [⟨path, true⟩] limit) :
    ((SortKey.mk path true).valueIn (documents.getD chosen .null)).order
      ((SortKey.mk path true).valueIn (documents.getD left .null)) ≠ .gt := by
  have alone (first second : Json) : SortKey.orderAll [⟨path, true⟩] first second =
      ((SortKey.mk path true).valueIn first).order ((SortKey.mk path true).valueIn second) := by
    rw [SortKey.orderAll, SortKey.orderAll, Ordering.then_eq]
    rfl
  rcases before_iff.mp (before_of_not_mem_select selected inRange leftOut) with less | ⟨ties, _⟩
  · rw [← alone, less]
    decide
  · rw [← alone, ties]
    decide

/-- Integers stand as the binary64 numbers nearest to them: those that do not tie stand by their
values, and so do all that are not changed by rounding, as those up to `2 ^ 53` are not.  An
ascending sort by integers with a limit selects as many documents as the limit and the
collection allow, and their integers have the least nearest numbers. -/
theorem integers_sort_as_nearest :
    (forall value : Integer64, value.nearest.NearestTo value.value ∧
      (forall number : Binary64, number.NearestTo value.value ->
        number.quantity = value.nearest.quantity) ∧
      (value.value.natAbs ≤ 2 ^ 53 -> value.Exact)) ∧
    (forall left right : Integer64,
      Json.order (.number (.integer left)) (.number (.integer right)) =
        compare left.nearest.quantity right.nearest.quantity ∧
      (Json.order (.number (.integer left)) (.number (.integer right)) ≠ .eq ->
        Json.order (.number (.integer left)) (.number (.integer right)) =
          compare left.value right.value) ∧
      (left.Exact -> right.Exact ->
        Json.order (.number (.integer left)) (.number (.integer right)) =
          compare left.value right.value)) ∧
    forall (documents : List Json) (path : Path) (values : Nat -> Integer64) (rows : UInt64),
      (forall position, position < documents.length ->
        (SortKey.mk path true).valueIn (documents.getD position .null) =
          .number (.integer (values position))) ->
      (select documents [⟨path, true⟩] (some rows)).length = min rows.toNat documents.length ∧
      (select documents [⟨path, true⟩] (some rows)).Nodup ∧
      forall chosen left, chosen ∈ select documents [⟨path, true⟩] (some rows) ->
        left < documents.length -> left ∉ select documents [⟨path, true⟩] (some rows) ->
        (values chosen).nearest.quantity ≤ (values left).nearest.quantity ∧
        ((values chosen).Exact -> (values left).Exact ->
          (values chosen).value ≤ (values left).value) := by
  refine ⟨fun value => ⟨value.nearestTo_nearest, fun _ => Integer64.quantity_eq_of_nearestTo,
      Integer64.exact_of_le⟩,
    fun left right => ⟨Json.order_integer left right, Json.order_integer_of_ne,
      Json.order_integer_of_exact⟩, ?_⟩
  intro documents path values rows integers
  refine ⟨length_select _ _ _, select_nodup _ _ _, ?_⟩
  intro chosen left selected inRange leftOut
  have placed := order_ne_gt_of_not_mem_select selected inRange leftOut
  rw [integers chosen (lt_of_mem_select selected), integers left inRange] at placed
  constructor
  · rw [Json.order_integer] at placed
    exact Int.not_lt.mp fun greater => placed (Int.compare_eq_gt.mpr greater)
  · intro exactChosen exactLeft
    rw [Json.order_integer_of_exact exactChosen exactLeft] at placed
    exact Int.not_lt.mp fun greater => placed (Int.compare_eq_gt.mpr greater)

/-- The first two positive integers that share their nearest number. -/
def firstTied : Integer64 := ⟨9007199254740992, by decide⟩

def nextTied : Integer64 := ⟨9007199254740993, by decide⟩

/-- The greater one stands first. -/
def tiedDocuments : List Json :=
  [.object [("n", .number (.integer nextTied))], .object [("n", .number (.integer firstTied))]]

theorem select_tiedDocuments : select tiedDocuments [⟨⟨[.field "n"]⟩, true⟩] (some 1) = [0] := by
  have sorted : sortedPositions tiedDocuments [⟨⟨[.field "n"]⟩, true⟩] = [0, 1] := by
    apply List.mergeSort_of_pairwise
    decide +kernel
  rw [select, sorted]
  rfl

/-- Integers do not sort by their values, and the least one need not be selected. -/
theorem not_integers_sort_by_value :
    compare firstTied.value nextTied.value = .lt ∧
    Json.order (.number (.integer firstTied)) (.number (.integer nextTied)) = .eq ∧
    (SortKey.mk ⟨[.field "n"]⟩ true).valueIn (tiedDocuments.getD 0 .null) =
      .number (.integer nextTied) ∧
    (SortKey.mk ⟨[.field "n"]⟩ true).valueIn (tiedDocuments.getD 1 .null) =
      .number (.integer firstTied) ∧
    select tiedDocuments [⟨⟨[.field "n"]⟩, true⟩] (some 1) = [0] := by
  refine ⟨by decide, by decide +kernel, by cbv, by cbv, select_tiedDocuments⟩

theorem integers_sort_as_nearest_tied :
    firstTied.nearest.NearestTo 9007199254740992 ∧
    Json.order (.number (.integer firstTied)) (.number (.integer ⟨-5, by decide⟩)) = .gt ∧
    nextTied.nearest.quantity ≤ firstTied.nearest.quantity := by
  rcases integers_sort_as_nearest with ⟨nearest, compared, sorted⟩
  have small : Integer64.Exact ⟨-5, by decide⟩ := (nearest ⟨-5, by decide⟩).2.2 (by decide)
  have exact : firstTied.Exact := (nearest firstTied).2.2 (by decide)
  have integers : forall position, position < tiedDocuments.length ->
      (SortKey.mk ⟨[.field "n"]⟩ true).valueIn (tiedDocuments.getD position .null) =
        .number (.integer (if position = 0 then nextTied else firstTied)) := by
    rintro (_ | _ | position) inRange
    · cbv
    · cbv
    · exact absurd inRange (by simp [tiedDocuments])
  have chosen := (sorted tiedDocuments ⟨[.field "n"]⟩ _ 1 integers).2.2 0 1
  rw [select_tiedDocuments] at chosen
  exact ⟨(nearest firstTied).1, (compared firstTied ⟨-5, by decide⟩).2.2 exact small,
    (chosen (by decide) (by decide) (by decide)).1⟩

end Store
end Emend
