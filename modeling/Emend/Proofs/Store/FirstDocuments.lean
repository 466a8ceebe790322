import Mathlib
import Emend.Proofs.Json.Order
import Emend.Proofs.Store.Selection

namespace Emend
namespace Store

/-!
# The first documents

The sort keys and, where they leave two documents equal, the positions make a strict total
order of the positions of a collection.  Sorting is stable, so the sorted positions are the
positions in this order, and what a limit leaves of them are the first ones: each selected
position comes before every position that is left out.
-/

variable {documents : List Json} {keys : List SortKey}

/-! ## The order of positions -/

/-- The first sort key that tells the documents at two positions apart places the first one
before the second one, or no key tells them apart and the first one comes first. -/
def Before (documents : List Json) (keys : List SortKey) (first second : Nat) : Prop :=
  (Exists fun earlier => Exists fun key => Exists fun later =>
    keys = earlier ++ key :: later ∧
    (forall other, other ∈ earlier ->
      other.Ties (documents.getD first .null) (documents.getD second .null)) ∧
    key.Precedes (documents.getD first .null) (documents.getD second .null)) ∨
  ((forall key, key ∈ keys ->
      key.Ties (documents.getD first .null) (documents.getD second .null)) ∧ first < second)

theorem before_iff {first second : Nat} :
    Before documents keys first second ↔
      SortKey.orderAll keys (documents.getD first .null) (documents.getD second .null) = .lt ∨
      SortKey.orderAll keys (documents.getD first .null) (documents.getD second .null) = .eq ∧
        first < second := by
  rw [Before, SortKey.orderAll_eq_lt_iff, SortKey.orderAll_eq_eq_iff]

/-- The order of positions: by the sort keys, then by the positions themselves. -/
def positionOrder (documents : List Json) (keys : List SortKey) : Nat -> Nat -> Ordering :=
  compareLex
    (fun first second =>
      SortKey.orderAll keys (documents.getD first .null) (documents.getD second .null))
    compare

instance (documents : List Json) (keys : List SortKey) :
    Std.TransCmp (positionOrder documents keys) := by
  have := SortKey.transCmp_on (SortKey.orderAll keys) fun position => documents.getD position .null
  unfold positionOrder
  infer_instance

theorem positionOrder_eq_lt_iff {first second : Nat} :
    positionOrder documents keys first second = .lt ↔ Before documents keys first second := by
  rw [positionOrder, compareLex, Ordering.then_eq_lt, Nat.compare_eq_lt, before_iff]

theorem eq_of_positionOrder {first second : Nat}
    (same : positionOrder documents keys first second = .eq) : first = second := by
  rw [positionOrder, compareLex, Ordering.then_eq_eq, Nat.compare_eq_eq] at same
  exact same.2

theorem not_before_self (position : Nat) : ¬ Before documents keys position position := by
  intro before
  have same : positionOrder documents keys position position = .eq := Std.ReflCmp.compare_self
  cases same.symm.trans (positionOrder_eq_lt_iff.mpr before)

theorem Before.trans {first second third : Nat} (left : Before documents keys first second)
    (right : Before documents keys second third) : Before documents keys first third :=
  positionOrder_eq_lt_iff.mp
    (Std.TransCmp.lt_trans (positionOrder_eq_lt_iff.mpr left) (positionOrder_eq_lt_iff.mpr right))

theorem before_or_before {first second : Nat} (different : first ≠ second) :
    Before documents keys first second ∨ Before documents keys second first := by
  cases compared : positionOrder documents keys first second with
  | lt => exact .inl (positionOrder_eq_lt_iff.mp compared)
  | eq => exact False.elim (different (eq_of_positionOrder compared))
  | gt => exact .inr (positionOrder_eq_lt_iff.mp (Std.OrientedCmp.lt_of_gt compared))

/-! ## Sorting -/

/-- The comparison by which positions are sorted. -/
def precedesOrTies (documents : List Json) (keys : List SortKey) (first second : Nat) : Bool :=
  SortKey.orderAll keys (documents.getD first .null) (documents.getD second .null) != .gt

theorem precedesOrTies_eq_isLE (first second : Nat) :
    precedesOrTies documents keys first second =
      (SortKey.orderAll keys (documents.getD first .null) (documents.getD second .null)).isLE := by
  rw [precedesOrTies]
  cases SortKey.orderAll keys (documents.getD first .null) (documents.getD second .null) <;> rfl

theorem precedesOrTies_trans (first second third : Nat)
    (left : precedesOrTies documents keys first second = true)
    (right : precedesOrTies documents keys second third = true) :
    precedesOrTies documents keys first third = true := by
  rw [precedesOrTies_eq_isLE] at left right ⊢
  exact Std.TransCmp.isLE_trans left right

theorem precedesOrTies_total (first second : Nat) :
    (precedesOrTies documents keys first second || precedesOrTies documents keys second first) =
      true := by
  have swapped : SortKey.orderAll keys (documents.getD second .null) (documents.getD first .null) =
      (SortKey.orderAll keys (documents.getD first .null) (documents.getD second .null)).swap :=
    Std.OrientedCmp.eq_swap
  rw [precedesOrTies_eq_isLE, precedesOrTies_eq_isLE, swapped]
  cases SortKey.orderAll keys (documents.getD first .null) (documents.getD second .null) <;> rfl

/-- Where the numbers are the positions themselves, sorting by both is sorting by the order of
positions. -/
theorem before_of_zipIdxLE {first second : Nat} (different : first ≠ second)
    (sorted : List.zipIdxLE (precedesOrTies documents keys) (first, first) (second, second) =
      true) : Before documents keys first second := by
  have swapped : SortKey.orderAll keys (documents.getD second .null) (documents.getD first .null) =
      (SortKey.orderAll keys (documents.getD first .null) (documents.getD second .null)).swap :=
    Std.OrientedCmp.eq_swap
  rw [before_iff]
  simp only [List.zipIdxLE, precedesOrTies, swapped] at sorted
  cases compared : SortKey.orderAll keys (documents.getD first .null) (documents.getD second .null)
  case lt => exact .inl rfl
  case eq =>
    simp only [compared, Ordering.swap, bne_iff_ne, ne_eq, reduceCtorEq, not_false_eq_true,
      if_true, decide_eq_true_eq] at sorted
    exact .inr ⟨rfl, Nat.lt_of_le_of_ne sorted different⟩
  case gt =>
    simp only [compared, bne_self_eq_false, Bool.false_eq_true, if_false] at sorted

theorem zipIdx_range (count : Nat) :
    (List.range count).zipIdx = (List.range count).map fun position => (position, position) := by
  apply List.ext_getElem
  · simp
  · simp

/-- The sorted positions stand in the order of positions. -/
theorem pairwise_sortedPositions (documents : List Json) (keys : List SortKey) :
    (sortedPositions documents keys).Pairwise (Before documents keys) := by
  let numbered := (List.range documents.length).zipIdx
  let inOrder := numbered.mergeSort (List.zipIdxLE (precedesOrTies documents keys))
  have reordered : inOrder.Perm numbered := List.mergeSort_perm _ _
  have sorted : inOrder.Pairwise fun left right =>
      List.zipIdxLE (precedesOrTies documents keys) left right = true :=
    List.pairwise_mergeSort (List.zipIdxLE_trans precedesOrTies_trans)
      (List.zipIdxLE_total precedesOrTies_total) numbered
  have twice : forall pair, pair ∈ inOrder -> Exists fun position => pair = (position, position) := by
    intro pair listed
    have inNumbered : pair ∈ numbered := reordered.mem_iff.mp listed
    rw [show numbered = _ from zipIdx_range documents.length] at inNumbered
    rcases List.mem_map.mp inNumbered with ⟨position, _, rfl⟩
    exact ⟨position, rfl⟩
  have distinct : inOrder.Nodup := by
    rw [reordered.nodup_iff, show numbered = _ from zipIdx_range documents.length]
    exact List.nodup_range.map fun first second same => congrArg Prod.fst same
  have unnumbered : sortedPositions documents keys = inOrder.map Prod.fst :=
    List.mergeSort_zipIdx.symm
  rw [unnumbered, List.pairwise_map]
  apply (sorted.and distinct).imp_of_mem
  rintro left right leftListed rightListed ⟨placed, different⟩
  rcases twice left leftListed with ⟨first, rfl⟩
  rcases twice right rightListed with ⟨second, rfl⟩
  exact before_of_zipIdxLE (fun same => different (congrArg (fun position => (position, position))
    same)) placed

/-! ## Selecting -/

theorem length_select (documents : List Json) (keys : List SortKey) (limit : Option UInt64) :
    (select documents keys limit).length =
      limit.elim documents.length fun rows => min rows.toNat documents.length := by
  have all : (sortedPositions documents keys).length = documents.length := by
    rw [(sortedPositions_perm documents keys).length_eq, List.length_range]
  cases limit with
  | none => exact all
  | some rows => rw [select, List.length_take, all, Option.elim]

theorem pairwise_select (documents : List Json) (keys : List SortKey) (limit : Option UInt64) :
    (select documents keys limit).Pairwise (Before documents keys) :=
  (pairwise_sortedPositions documents keys).sublist (select_sublist documents keys limit)

/-- A position that is left out is behind the limit in the sorted positions. -/
theorem before_of_not_mem_select {limit : Option UInt64} {chosen left : Nat}
    (selected : chosen ∈ select documents keys limit) (inRange : left < documents.length)
    (leftOut : left ∉ select documents keys limit) : Before documents keys chosen left := by
  have sorted : left ∈ sortedPositions documents keys :=
    (sortedPositions_perm documents keys).mem_iff.mpr (List.mem_range.mpr inRange)
  cases limit with
  | none => exact absurd sorted leftOut
  | some rows =>
      have pairs := pairwise_sortedPositions documents keys
      rw [← List.take_append_drop rows.toNat (sortedPositions documents keys)] at pairs sorted
      rcases List.mem_append.mp sorted with taken | dropped
      · exact absurd taken leftOut
      · exact (List.pairwise_append.mp pairs).2.2 chosen selected left dropped

/-- The positions of a collection have a strict total order, by the first sort key that tells
two documents apart or else by the positions.  A selection has as many positions as the limit
and the collection allow, none twice; they stand in that order, and each comes before every
position that is left out. -/
theorem select_first (documents : List Json) (keys : List SortKey) (limit : Option UInt64) :
    ((forall position, ¬ Before documents keys position position) ∧
      (forall first second third, Before documents keys first second ->
        Before documents keys second third -> Before documents keys first third) ∧
      (forall first second, first ≠ second ->
        Before documents keys first second ∨ Before documents keys second first)) ∧
    (select documents keys limit).length =
      (limit.elim documents.length fun rows => min rows.toNat documents.length) ∧
    (select documents keys limit).Nodup ∧
    (forall position, position ∈ select documents keys limit -> position < documents.length) ∧
    (select documents keys limit).Pairwise (Before documents keys) ∧
    forall chosen left, chosen ∈ select documents keys limit -> left < documents.length ->
      left ∉ select documents keys limit -> Before documents keys chosen left :=
  ⟨⟨not_before_self, fun _ _ _ => Before.trans, fun _ _ => before_or_before⟩,
    length_select documents keys limit, select_nodup documents keys limit,
    fun _ => lt_of_mem_select, pairwise_select documents keys limit,
    fun _ _ => before_of_not_mem_select⟩

/-- Documents with equal values, with values of different kinds and with none. -/
def graded : List Json :=
  [.object [("g", .string "a"), ("n", .bool true)], .object [("g", .string "b")],
    .object [("g", .string "b"), ("n", .string "1")],
    .object [("g", .string "a"), ("n", .bool true)]]

/-- The greatest `g` first, and the least `n` among equal ones. -/
def gradesThenNumbers : List SortKey :=
  [⟨⟨[.field "g"]⟩, false⟩, ⟨⟨[.field "n"]⟩, true⟩]

/-- Of two documents that tie the second one is left out. -/
theorem select_first_graded :
    select graded gradesThenNumbers (some 3) = [1, 2, 0] ∧
    Before graded gradesThenNumbers 1 0 ∧ Before graded gradesThenNumbers 0 3 ∧
    Before graded gradesThenNumbers 1 3 := by
  have selected : select graded gradesThenNumbers (some 3) = [1, 2, 0] := by
    cbv
  rcases select_first graded gradesThenNumbers (some 3) with
    ⟨⟨_, transitive, _⟩, _, _, _, inOrder, leftOut⟩
  rw [selected] at inOrder leftOut
  have first : Before graded gradesThenNumbers 1 0 :=
    (List.pairwise_cons.mp inOrder).1 0 (by decide)
  have last : Before graded gradesThenNumbers 0 3 := leftOut 0 3 (by decide) (by decide) (by decide)
  exact ⟨selected, first, last, transitive 1 0 3 first last⟩

/-! ## The comparison that positions are sorted by -/

/-- The comparison of two positions of a collection by the documents there. -/
def compareAt (documents : List Json) (keys : List SortKey) (first second : Nat) : Ordering :=
  SortKey.orderAll keys (documents.getD first .null) (documents.getD second .null)

instance (documents : List Json) (keys : List SortKey) : Std.TransCmp (compareAt documents keys) :=
  SortKey.transCmp_on (SortKey.orderAll keys) _

theorem precedesOrTies_eq_isLE_compareAt :
    precedesOrTies documents keys =
      fun first second => (compareAt documents keys first second).isLE := by
  funext first second
  exact precedesOrTies_eq_isLE first second

theorem sortedPositions_eq_mergeSort (documents : List Json) (keys : List SortKey) :
    sortedPositions documents keys =
      (List.range documents.length).mergeSort fun first second =>
        (compareAt documents keys first second).isLE := by
  rw [← precedesOrTies_eq_isLE_compareAt]
  rfl

theorem pairwise_isLE_sortedPositions (documents : List Json) (keys : List SortKey) :
    (sortedPositions documents keys).Pairwise fun first second =>
      (compareAt documents keys first second).isLE = true := by
  have sorted := List.pairwise_mergeSort (@precedesOrTies_trans documents keys)
    precedesOrTies_total (List.range documents.length)
  rw [precedesOrTies_eq_isLE_compareAt, ← sortedPositions_eq_mergeSort] at sorted
  exact sorted

/-- All values are totally preordered, whatever their kinds: by the kind, and within a kind by
the boolean, the place of the number or the string.  So are the documents by any list of sort
keys, with any directions, and the positions of a collection; sorting sorts the latter. -/
theorem compareAt_totallyPreorders :
    (TotallyPreorders Json.order ∧
      (forall left right : Json, left.order right = .eq ↔
        left.kind = right.kind ∧ left.truth = right.truth ∧ left.quantity = right.quantity ∧
          left.characters = right.characters) ∧
      forall left right : Json, left.order right = .lt ↔
        left.kind.rank < right.kind.rank ∨ left.kind = right.kind ∧
          (left.truth < right.truth ∨ left.quantity < right.quantity ∨
            left.characters < right.characters)) ∧
    forall keys : List SortKey,
      (TotallyPreorders (SortKey.orderAll keys) ∧
        forall left right, SortKey.orderAll keys left right = .eq ↔
          forall key, key ∈ keys -> key.Ties left right) ∧
      forall documents : List Json, TotallyPreorders (compareAt documents keys) ∧
        sortedPositions documents keys =
          (List.range documents.length).mergeSort (fun first second =>
            (compareAt documents keys first second).isLE) ∧
        (sortedPositions documents keys).Pairwise fun first second =>
          (compareAt documents keys first second).isLE = true :=
  ⟨⟨totallyPreorders Json.order, fun _ _ => Json.order_eq_eq_iff, fun _ _ => Json.order_eq_lt_iff⟩,
    fun keys => ⟨⟨totallyPreorders (SortKey.orderAll keys), fun _ _ => SortKey.orderAll_eq_eq_iff⟩,
      fun documents => ⟨totallyPreorders (compareAt documents keys),
        sortedPositions_eq_mergeSort documents keys,
        pairwise_isLE_sortedPositions documents keys⟩⟩⟩

/-- Documents with values of different kinds and one with none.  The integer is one less than
the binary64 number, which is the nearest one to it. -/
def unlike : List Json :=
  [.object [("n", .number (.integer ⟨9007199254740995, by decide⟩))],
    .object [("n", .array [.null])], .object [], .object [("n", .string "a")],
    .object [("n", .number (.float ⟨false, 4845873199050653698, by decide⟩))],
    .object [("n", .bool true)]]

/-- The greatest value first. -/
def greatestFirst : List SortKey :=
  [⟨⟨[.field "n"]⟩, false⟩]

theorem compareAt_totallyPreorders_unlike :
    compareAt unlike greatestFirst 0 4 = .eq ∧ compareAt unlike greatestFirst 4 0 = .eq ∧
    (compareAt unlike greatestFirst 3 4).isLE = true ∧
    (compareAt unlike greatestFirst 3 5).isLE = true := by
  have tied : compareAt unlike greatestFirst 0 4 = .eq := by
    decide +kernel
  have text : (compareAt unlike greatestFirst 3 0).isLE = true := by
    cbv
  have flag : (compareAt unlike greatestFirst 4 5).isLE = true := by
    cbv
  rcases (compareAt_totallyPreorders.2 greatestFirst).2 unlike with ⟨⟨_, swap, trans⟩, _⟩
  have float := trans 3 0 4 text (congrArg Ordering.isLE tied)
  exact ⟨tied, (swap 0 4).trans (congrArg Ordering.swap tied), float,
    trans 3 4 5 float flag⟩

end Store
end Emend
