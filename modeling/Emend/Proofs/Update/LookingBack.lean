import Emend.Proofs.Update.History

namespace Emend

/-!
# Looking back

The notes are taken in one pass, with a history that forgets most of what it
has seen.  Here each note is described by looking back over all operations in
front of the one it is about.  Two questions are asked of them: which is the
latest that writes at a path, and which is the latest patch that removes the
path, or one above it, without any later operation writing what it removed.

Operations behind the one that is noted have no influence on the answers.
-/

/-! ## Questions -/

/-- The greatest number below a bound that has a property. -/
def latest? (bound : Nat) (holds : Nat -> Bool) : Option Nat :=
  (List.range bound).findRev? holds

namespace History

/-- The paths at which the operation with a number writes. -/
def writtenBy (operations : List Operation) (index : Nat) : List Path :=
  (operations[index]?.map Operation.writtenPaths).getD []

/-- The paths that the operation with a number sets to null. -/
def removedBy (operations : List Operation) (index : Nat) : List Path :=
  (operations[index]?.map Operation.removedPaths).getD []

/-- A patch before a time sets a path to null, and no operation between them
writes at it. -/
def StaysRemoved (operations : List Operation) (time patch : Nat) (path : Path) : Prop :=
  patch < time ∧ path ∈ removedBy operations patch ∧
    forall later, later < time -> patch < later -> path ∉ writtenBy operations later

instance (operations : List Operation) (time patch : Nat) (path : Path) :
    Decidable (StaysRemoved operations time patch path) :=
  inferInstanceAs (Decidable (_ ∧ _ ∧ _))

/-- The latest operation before a time that writes at a path. -/
def writerBefore? (operations : List Operation) (time : Nat) (path : Path) : Option Nat :=
  latest? time fun index => (writtenBy operations index).contains path

/-- The latest patch before a time of which a path that stays removed is the
path or lies above it. -/
def removerBefore? (operations : List Operation) (time : Nat) (path : Path) : Option Nat :=
  latest? time fun patch => (removedBy operations patch).any fun removed =>
    decide (StaysRemoved operations time patch removed) && path.startsWith removed

/-! ## The notes, one operation after another -/

/-- That an operation overrides the latest writer before it, if there is one. -/
def overrideOf (operations : List Operation) (index : Nat) (path : Path) : List Note :=
  match writerBefore? operations index path with
  | some earlier => [.overrides (UInt64.ofNat index) (UInt64.ofNat earlier) path]
  | none => []

/-- That an operation restores what a patch before it removed, or else the
given notes. -/
def restorationOr (operations : List Operation) (index : Nat) (path : Path)
    (otherwise : List Note) : List Note :=
  match removerBefore? operations index path with
  | some patch => [.restoresPatchedNull (UInt64.ofNat index) (UInt64.ofNat patch) path]
  | none => otherwise

/-- The notes on the operation with a number. -/
def described (operations : List Operation) (index : Nat) : List Note :=
  match operations[index]? with
  | none => []
  | some (.patch document) =>
      (patchLeaves document).flatMap fun leaf => overrideOf operations index leaf.1
  | some (.unset path) => overrideOf operations index path
  | some (.set path _) | some (.change path _) =>
      restorationOr operations index path (overrideOf operations index path)
  | some (.arrayInsert path _) | some (.arrayAppend path _) =>
      restorationOr operations index path []

/-! ## Laws of looking back -/

theorem findRev?_append {Value : Type} (p : Value -> Bool) (front back : List Value) :
    (front ++ back).findRev? p = (back.findRev? p).or (front.findRev? p) := by
  rw [List.findRev?_eq_find?_reverse, List.findRev?_eq_find?_reverse,
    List.findRev?_eq_find?_reverse, List.reverse_append, List.find?_append]

theorem findRev?_singleton {Value : Type} (p : Value -> Bool) (value : Value) :
    [value].findRev? p = if p value then some value else none := by
  rw [List.findRev?_eq_find?_reverse]
  exact List.find?_singleton

theorem latest?_zero (holds : Nat -> Bool) : latest? 0 holds = none := rfl

theorem latest?_succ (bound : Nat) (holds : Nat -> Bool) :
    latest? (bound + 1) holds = if holds bound then some bound else latest? bound holds := by
  rw [latest?, List.range_succ, findRev?_append, findRev?_singleton]
  split <;> rfl

theorem latest?_congr {bound : Nat} {holds other : Nat -> Bool}
    (same : forall index, index < bound -> holds index = other index) :
    latest? bound holds = latest? bound other := by
  induction bound with
  | zero => rfl
  | succ bound ih =>
      rw [latest?_succ, latest?_succ, same bound (Nat.lt_succ_self bound),
        ih fun index below => same index (Nat.lt_succ_of_lt below)]

/-- What is found is the greatest number with the property. -/
theorem latest?_eq_some_iff (bound : Nat) (holds : Nat -> Bool) (index : Nat) :
    latest? bound holds = some index ↔
      index < bound ∧ holds index = true ∧
        forall later, index < later -> later < bound -> holds later = false := by
  induction bound with
  | zero =>
      rw [latest?_zero]
      constructor
      · intro impossible
        cases impossible
      · rintro ⟨impossible, _⟩
        exact False.elim (Nat.not_lt_zero _ impossible)
  | succ bound ih =>
      rw [latest?_succ]
      cases here : holds bound with
      | true =>
          rw [if_pos rfl]
          constructor
          · intro same
            cases same
            refine ⟨Nat.lt_succ_self _, here, ?_⟩
            intro later above below
            omega
          · rintro ⟨below, _, none⟩
            by_cases same : bound = index
            · rw [same]
            · have greater := none bound (by omega) (Nat.lt_succ_self bound)
              rw [here] at greater
              cases greater
      | false =>
          rw [if_neg Bool.false_ne_true, ih]
          constructor
          · rintro ⟨below, found, none⟩
            refine ⟨Nat.lt_succ_of_lt below, found, ?_⟩
            intro later above within
            by_cases same : later = bound
            · rw [same, here]
            · exact none later above (by omega)
          · rintro ⟨below, found, none⟩
            have different : index ≠ bound := by
              intro same
              rw [same, here] at found
              cases found
            exact ⟨by omega, found, fun later above within =>
              none later above (Nat.lt_succ_of_lt within)⟩

/-! ## Later operations do not matter -/

variable (operations more : List Operation)

theorem writtenBy_append {index : Nat} (before : index < operations.length) :
    writtenBy (operations ++ more) index = writtenBy operations index := by
  rw [writtenBy, List.getElem?_append_left before, writtenBy]

theorem removedBy_append {index : Nat} (before : index < operations.length) :
    removedBy (operations ++ more) index = removedBy operations index := by
  rw [removedBy, List.getElem?_append_left before, removedBy]

theorem staysRemoved_append {time patch : Nat} (before : time ≤ operations.length) (path : Path) :
    StaysRemoved (operations ++ more) time patch path ↔
      StaysRemoved operations time patch path := by
  have written : forall later, later < time ->
      writtenBy (operations ++ more) later = writtenBy operations later :=
    fun later below => writtenBy_append operations more (Nat.lt_of_lt_of_le below before)
  constructor
  · rintro ⟨below, removed, unwritten⟩
    rw [removedBy_append operations more (Nat.lt_of_lt_of_le below before)] at removed
    refine ⟨below, removed, ?_⟩
    intro later within above
    rw [← written later within]
    exact unwritten later within above
  · rintro ⟨below, removed, unwritten⟩
    rw [← removedBy_append operations more (Nat.lt_of_lt_of_le below before)] at removed
    refine ⟨below, removed, ?_⟩
    intro later within above
    rw [written later within]
    exact unwritten later within above

theorem writerBefore?_append {time : Nat} (before : time ≤ operations.length) (path : Path) :
    writerBefore? (operations ++ more) time path = writerBefore? operations time path := by
  apply latest?_congr
  intro index below
  rw [writtenBy_append operations more (Nat.lt_of_lt_of_le below before)]

theorem removerBefore?_append {time : Nat} (before : time ≤ operations.length) (path : Path) :
    removerBefore? (operations ++ more) time path = removerBefore? operations time path := by
  apply latest?_congr
  intro patch below
  simp only [removedBy_append operations more (Nat.lt_of_lt_of_le below before),
    staysRemoved_append operations more before]

theorem described_append {index : Nat} (before : index < operations.length) :
    described (operations ++ more) index = described operations index := by
  have within := Nat.le_of_lt before
  simp only [described, List.getElem?_append_left before, overrideOf, restorationOr,
    writerBefore?_append operations more within, removerBefore?_append operations more within]

/-! ## One more operation -/

variable {operations more}

theorem writtenBy_last (operations : List Operation) (operation : Operation) :
    writtenBy (operations ++ [operation]) operations.length = operation.writtenPaths := by
  rw [writtenBy, List.getElem?_concat_length]
  rfl

theorem removedBy_last (operations : List Operation) (operation : Operation) :
    removedBy (operations ++ [operation]) operations.length = operation.removedPaths := by
  rw [removedBy, List.getElem?_concat_length]
  rfl

theorem writerBefore?_snoc (operations : List Operation) (operation : Operation) (path : Path) :
    writerBefore? (operations ++ [operation]) (operations.length + 1) path =
      if path ∈ operation.writtenPaths then some operations.length
      else writerBefore? operations operations.length path := by
  have next : writerBefore? (operations ++ [operation]) (operations.length + 1) path =
      if operation.writtenPaths.contains path then some operations.length
      else writerBefore? (operations ++ [operation]) operations.length path := by
    rw [← writtenBy_last operations operation]
    exact latest?_succ _ _
  rw [next, writerBefore?_append operations [operation] (Nat.le_refl _), List.contains_eq_mem]
  by_cases written : path ∈ operation.writtenPaths
  · rw [if_pos written, if_pos (decide_eq_true written)]
  · rw [if_neg written, if_neg (by rw [decide_eq_false written]; exact Bool.false_ne_true)]

/-- One more operation keeps what it does not write. -/
theorem staysRemoved_snoc (operation : Operation) {patch : Nat}
    (before : patch < operations.length) (path : Path) :
    StaysRemoved (operations ++ [operation]) (operations.length + 1) patch path ↔
      StaysRemoved operations operations.length patch path ∧ path ∉ operation.writtenPaths := by
  rw [← staysRemoved_append operations [operation] (Nat.le_refl _)]
  constructor
  · rintro ⟨_, removed, unwritten⟩
    refine ⟨⟨before, removed, fun later within => unwritten later (Nat.lt_succ_of_lt within)⟩, ?_⟩
    rw [← writtenBy_last operations operation]
    exact unwritten _ (Nat.lt_succ_self _) before
  · rintro ⟨⟨_, removed, unwritten⟩, absent⟩
    refine ⟨Nat.lt_succ_of_lt before, removed, ?_⟩
    intro later within above
    by_cases last : later = operations.length
    · rw [last, writtenBy_last]
      exact absent
    · exact unwritten later (by omega) above

theorem staysRemoved_last {operation : Operation} {path : Path}
    (removed : path ∈ operation.removedPaths) :
    StaysRemoved (operations ++ [operation]) (operations.length + 1) operations.length path := by
  refine ⟨Nat.lt_succ_self _, ?_, ?_⟩
  · rw [removedBy_last]
    exact removed
  · intro later within above
    omega

/-! ## All removals that stand -/

/-- The paths removed by one patch that stay so up to a time. -/
def standingOf (operations : List Operation) (time patch : Nat) : List (Path × Nat) :=
  ((removedBy operations patch).filter fun path =>
    decide (StaysRemoved operations time patch path)).map fun path => (path, patch)

/-- All paths that stay removed up to a time, each with its patch, in the order
of the patches. -/
def standingRemovals (operations : List Operation) (time : Nat) : List (Path × Nat) :=
  (List.range time).flatMap (standingOf operations time)

theorem standingOf_snoc (operation : Operation) {patch : Nat} (before : patch < operations.length) :
    standingOf (operations ++ [operation]) (operations.length + 1) patch =
      (standingOf operations operations.length patch).filter fun removal =>
        !operation.writtenPaths.contains removal.1 := by
  rw [standingOf, standingOf, removedBy_append operations [operation] before, List.filter_map,
    List.filter_filter]
  apply congrArg
  apply List.filter_congr
  intro path _
  apply Bool.eq_iff_iff.mpr
  rw [decide_eq_true_iff, staysRemoved_snoc operation before, Bool.and_eq_true_iff,
    decide_eq_true_iff, Function.comp_apply, Bool.not_eq_true', List.contains_eq_mem,
    decide_eq_false_iff_not, and_comm]

theorem standingOf_last (operations : List Operation) (operation : Operation) :
    standingOf (operations ++ [operation]) (operations.length + 1) operations.length =
      operation.removedPaths.map fun path => (path, operations.length) := by
  rw [standingOf, removedBy_last]
  apply congrArg
  apply List.filter_eq_self.mpr
  intro path removed
  exact decide_eq_true (staysRemoved_last removed)

theorem standingRemovals_snoc (operations : List Operation) (operation : Operation) :
    standingRemovals (operations ++ [operation]) (operations.length + 1) =
      ((standingRemovals operations operations.length).filter fun removal =>
          !operation.writtenPaths.contains removal.1) ++
        operation.removedPaths.map fun path => (path, operations.length) := by
  rw [standingRemovals, List.range_succ, List.flatMap_append, List.flatMap_cons, List.flatMap_nil,
    List.append_nil, standingOf_last, standingRemovals, List.filter_flatMap]
  apply congrArg (· ++ _)
  apply List.flatMap_congr
  intro patch listed
  exact standingOf_snoc operation (List.mem_range.mp listed)

/-- Searching numbered paths from the back finds the latest number with a
fitting path. -/
theorem findRev?_numbered (bound : Nat) (paths : Nat -> List Path) (fits : Path -> Bool) :
    (((List.range bound).flatMap fun index => (paths index).map fun path => (path, index)).findRev?
        fun numbered => fits numbered.1).map (·.2) =
      latest? bound fun index => (paths index).any fits := by
  induction bound with
  | zero => rfl
  | succ bound ih =>
      have newest : (((paths bound).map fun path => (path, bound)).findRev?
            fun numbered => fits numbered.1).map (·.2) =
          if (paths bound).any fits then some bound else none := by
        rw [List.findRev?_eq_find?_reverse, ← List.map_reverse, List.find?_map, Option.map_map,
          ← List.any_reverse, ← List.isSome_find?]
        -- Numbering the paths does not change which of them fit.
        change Option.map _ ((paths bound).reverse.find? fits) = _
        cases (paths bound).reverse.find? fits <;> rfl
      rw [List.range_succ, List.flatMap_append, List.flatMap_cons, List.flatMap_nil,
        List.append_nil, findRev?_append, Option.map_or, newest, ih, latest?_succ]
      split <;> rfl

/-- The latest remover is found by searching the removals that stand from the
back. -/
theorem removerBefore?_eq_findRev? (operations : List Operation) (time : Nat) (path : Path) :
    removerBefore? operations time path =
      ((standingRemovals operations time).findRev? fun removal =>
        path.startsWith removal.1).map (·.2) := by
  refine Eq.trans ?_ (findRev?_numbered time _ path.startsWith).symm
  apply latest?_congr
  intro patch _
  rw [List.any_filter]

end History
end Emend
