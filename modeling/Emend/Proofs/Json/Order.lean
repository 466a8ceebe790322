import Mathlib.Data.List.Basic
import Emend.Store.Selection

namespace Emend

/-!
# The order of values

Values are ordered by their kinds first, and within a kind by what decides there.  So the
order is a lexicographic one: it compares four places in turn, and a value that has nothing
to say about a place says there what all values of its kind say.  As each place is ordered
totally, so are the values, up to different ones that count as equal.  Sort keys and lists
of sort keys inherit this.
-/

/-- The comparison is a total preorder: each value ties with itself, an exchange of the values
reverses the result, and being less or tied is transitive. -/
structure TotallyPreorders {Value : Type} (cmp : Value -> Value -> Ordering) : Prop where
  self : forall value, cmp value value = .eq
  swap : forall left right, cmp right left = (cmp left right).swap
  trans : forall first second third, (cmp first second).isLE = true ->
    (cmp second third).isLE = true -> (cmp first third).isLE = true

theorem totallyPreorders {Value : Type} (cmp : Value -> Value -> Ordering) [Std.TransCmp cmp] :
    TotallyPreorders cmp where
  self _ := Std.ReflCmp.compare_self
  swap _ _ := Std.OrientedCmp.eq_swap
  trans _ _ _ := Std.TransCmp.isLE_trans

namespace Json

/-! ## The places that are compared -/

/-- The place of a boolean. -/
def truth : Json -> Nat
  | .bool value => value.toNat
  | _ => 0

/-- The place of a number. -/
def quantity : Json -> Int
  | .number value => value.position
  | _ => 0

/-- The place of a string. -/
def characters : Json -> String
  | .string value => value
  | _ => ""

/-- The order by the rank of the kind, then by each place. -/
def placeOrder : Json -> Json -> Ordering :=
  compareLex (compareOn fun value => value.kind.rank)
    (compareLex (compareOn truth) (compareLex (compareOn quantity) (compareOn characters)))

/-- Between different kinds the first place decides alone; within a kind it is the same for
all values, and so are all places but the one of the kind. -/
theorem order_eq_placeOrder : order = placeOrder := by
  funext left right
  cases left <;> cases right
  all_goals
    simp [order, placeOrder, compareLex, compareOn, kind, Kind.rank, truth, quantity, characters]
  all_goals rfl

instance : Std.TransCmp placeOrder := by
  unfold placeOrder
  infer_instance

instance : Std.TransCmp order := by
  rw [order_eq_placeOrder]
  infer_instance

theorem Kind.rank_inj {left right : Kind} : left.rank = right.rank ↔ left = right := by
  cases left <;> cases right <;> decide

theorem compare_string_eq_lt {left right : String} : compare left right = .lt ↔ left < right :=
  compareOfLessAndEq_eq_lt

/-- Values tie if their kind is the same and nothing in it tells them apart. -/
theorem order_eq_eq_iff {left right : Json} :
    left.order right = .eq ↔
      left.kind = right.kind ∧ left.truth = right.truth ∧ left.quantity = right.quantity ∧
        left.characters = right.characters := by
  simp only [order_eq_placeOrder, placeOrder, compareLex, compareOn, Ordering.then_eq_eq,
    Std.compare_eq_iff_eq, Kind.rank_inj]

/-- A value is less than another one by its kind, or by what decides in their kind. -/
theorem order_eq_lt_iff {left right : Json} :
    left.order right = .lt ↔
      left.kind.rank < right.kind.rank ∨ left.kind = right.kind ∧
        (left.truth < right.truth ∨ left.quantity < right.quantity ∨
          left.characters < right.characters) := by
  cases left <;> cases right
  all_goals
    simp [order, kind, Kind.rank, truth, quantity, characters, Nat.compare_eq_lt, Int.compare_eq_lt,
      compare_string_eq_lt]

end Json

namespace SortKey

/-! ## Sort keys -/

/-- An order of values is an order of what they are read from. -/
theorem transCmp_on {Source Value : Type} (cmp : Value -> Value -> Ordering) [Std.TransCmp cmp]
    (read : Source -> Value) : Std.TransCmp fun left right => cmp (read left) (read right) where
  eq_swap := Std.OrientedCmp.eq_swap
  isLE_trans := Std.TransCmp.isLE_trans

instance (key : SortKey) : Std.TransCmp key.order := by
  rcases key with ⟨path, ascending | ascending⟩
  · have turned : order ⟨path, false⟩ = fun left right =>
        (valueIn ⟨path, false⟩ right).order (valueIn ⟨path, false⟩ left) := by
      funext left right
      exact Std.OrientedCmp.eq_swap.symm
    rw [turned]
    exact transCmp_on (fun left right : Json => right.order left) _
  · exact transCmp_on Json.order _

instance (keys : List SortKey) : Std.TransCmp (orderAll keys) := by
  induction keys with
  | nil => exact { eq_swap := rfl, isLE_trans := fun _ _ => rfl }
  | cons key rest _ => exact inferInstanceAs (Std.TransCmp (compareLex key.order (orderAll rest)))

/-! ## What a list of sort keys decides -/

/-- The documents have equal values for a key. -/
def Ties (key : SortKey) (left right : Json) : Prop :=
  (key.valueIn left).order (key.valueIn right) = .eq

/-- The key places one document before another one: its value is less, or greater where the
direction is reversed. -/
def Precedes (key : SortKey) (left right : Json) : Prop :=
  (key.valueIn left).order (key.valueIn right) = if key.ascending then .lt else .gt

variable {left right : Json}

theorem order_eq_eq_iff {key : SortKey} : key.order left right = .eq ↔ key.Ties left right := by
  rw [order, Ties]
  split
  · exact Iff.rfl
  · exact Ordering.swap_eq_eq

theorem order_eq_lt_iff {key : SortKey} : key.order left right = .lt ↔ key.Precedes left right := by
  rw [order, Precedes]
  split
  · exact Iff.rfl
  · exact Ordering.swap_eq_lt

theorem orderAll_eq_eq_iff {keys : List SortKey} :
    orderAll keys left right = .eq ↔ forall key, key ∈ keys -> key.Ties left right := by
  induction keys with
  | nil =>
      constructor
      · intro _ key listed
        cases listed
      · exact fun _ => rfl
  | cons key rest ih => rw [orderAll, Ordering.then_eq_eq, order_eq_eq_iff, ih, List.forall_mem_cons]

/-- The first key that tells two documents apart decides. -/
theorem orderAll_eq_lt_iff {keys : List SortKey} :
    orderAll keys left right = .lt ↔
      Exists fun earlier => Exists fun key => Exists fun later =>
        keys = earlier ++ key :: later ∧
        (forall other, other ∈ earlier -> other.Ties left right) ∧ key.Precedes left right := by
  induction keys with
  | nil =>
      constructor
      · intro less
        cases less
      · rintro ⟨earlier, key, later, split, _⟩
        exact False.elim (List.append_ne_nil_of_right_ne_nil earlier (List.cons_ne_nil key later)
          split.symm)
  | cons first rest ih =>
      rw [orderAll, Ordering.then_eq_lt, order_eq_lt_iff, order_eq_eq_iff, ih]
      constructor
      · rintro (precedes | ⟨ties, earlier, key, later, rfl, tied, precedes⟩)
        · exact ⟨[], first, rest, rfl, List.forall_mem_nil _, precedes⟩
        · exact ⟨first :: earlier, key, later, rfl, List.forall_mem_cons.mpr ⟨ties, tied⟩, precedes⟩
      · rintro ⟨_ | ⟨head, earlier⟩, key, later, split, tied, precedes⟩
        · cases split
          exact .inl precedes
        · cases split
          have parts := List.forall_mem_cons.mp tied
          exact .inr ⟨parts.1, earlier, key, later, rfl, parts.2, precedes⟩

end SortKey

end Emend
