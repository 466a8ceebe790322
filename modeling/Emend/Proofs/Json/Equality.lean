import Emend.Json
import Emend.Proofs.Json.Members

namespace Emend

/-!
# Laws of equality

Equality of values is coarser than identity for one reason only: binary64 has two zeros.
A value in which every zero has lost its sign stands for all values that are equal to it.
So values are equal exactly if their *representatives* are the same.  Equality is an
equivalence for that reason, and whatever can be said in terms of representatives cannot
tell equal values apart.
-/

/-- The rank of the zeros is finite. -/
theorem Binary64.rankLimit_pos : 0 < rankLimit := by decide

/-- Two places on the line are the same if the ranks are, and the signs unless the rank is
zero. -/
theorem Binary64.position_eq_iff (left right : Binary64) :
    left.position = right.position ↔
      left.rank = right.rank ∧ (left.rank = 0 ∨ left.negative = right.negative) := by
  rcases left with ⟨negative, rank, finite⟩
  rcases right with ⟨otherNegative, otherRank, otherFinite⟩
  cases negative <;> cases otherNegative <;>
    simp only [position, Bool.false_eq_true, Bool.true_eq_false, if_false, if_true, or_true,
      or_false, and_true] <;> omega

namespace Number

/-- The number, with the sign of zero gone. -/
def representative : Number → Number
  | .integer value => .integer value
  | .float value => .float { value with negative := value.negative && value.rank != 0 }

theorem equal_iff (left right : Number) :
    left.equal right = true ↔ left.representative = right.representative := by
  cases left with
  | integer value =>
      cases right with
      | integer other =>
          rcases value with ⟨value, inRange⟩
          rcases other with ⟨other, otherInRange⟩
          simp only [equal, representative, beq_iff_eq, integer.injEq, Integer64.mk.injEq]
      | float other => simp only [equal, representative, Bool.false_eq_true, reduceCtorEq]
  | float value =>
      cases right with
      | integer other => simp only [equal, representative, Bool.false_eq_true, reduceCtorEq]
      | float other =>
          rcases value with ⟨negative, rank, finite⟩
          rcases other with ⟨otherNegative, otherRank, otherFinite⟩
          simp only [equal, representative, beq_iff_eq, Binary64.position_eq_iff, float.injEq,
            Binary64.mk.injEq]
          constructor
          · rintro ⟨rfl, zero | rfl⟩
            · rw [zero]
              exact ⟨(Bool.and_false _).trans (Bool.and_false _).symm, rfl⟩
            · exact ⟨rfl, rfl⟩
          · rintro ⟨signs, rfl⟩
            refine ⟨rfl, ?_⟩
            by_cases zero : rank = 0
            · exact Or.inl zero
            · rw [bne_iff_ne.mpr zero, Bool.and_true, Bool.and_true] at signs
              exact Or.inr signs

end Number

/-! ## Members with other values -/

namespace Members

variable {Value Other : Type}

/-- The same names, each with what is made of its value. -/
def mapValues (change : Value → Other) (members : Members Value) : Members Other :=
  members.map fun member => (member.1, change member.2)

theorem get?_mapValues (change : Value -> Other) (members : Members Value) (name : String) :
    get? (mapValues change members) name = (get? members name).map change := by
  induction members with
  | nil => rfl
  | cons member rest ih =>
      rcases member with ⟨other, old⟩
      by_cases same : name = other
      · subst other
        rw [mapValues, List.map_cons, get?_cons_same, get?_cons_same, Option.map_some]
      · rw [mapValues, List.map_cons, get?_cons_of_ne same, get?_cons_of_ne same]
        exact ih

theorem Sorted.mapValues {members : Members Value} (sorted : Sorted members)
    (change : Value -> Other) : Sorted (mapValues change members) :=
  List.pairwise_map.mpr sorted

theorem mapValues_insert (change : Value -> Other) (name : String) (value : Value)
    (members : Members Value) :
    mapValues change (insert name value members) =
      insert name (change value) (mapValues change members) := by
  induction members with
  | nil => rfl
  | cons member rest ih =>
      rcases member with ⟨other, old⟩
      simp only [mapValues, List.map_cons, insert] at ih ⊢
      cases compare name other with
      | lt => rfl
      | eq => rfl
      | gt => exact congrArg ((other, change old) :: ·) ih

theorem mapValues_erase (change : Value -> Other) (name : String) (members : Members Value) :
    mapValues change (erase name members) = erase name (mapValues change members) := by
  rw [mapValues, mapValues, erase, erase, List.filter_map]
  rfl

end Members

namespace Json

/-! ## Values -/

mutual
/-- The value, with the sign of every zero in it gone. -/
def representative : Json → Json
  | .null => .null
  | .bool value => .bool value
  | .number value => .number value.representative
  | .string value => .string value
  | .array items => .array (representativeItems items)
  | .object members => .object (representativeMembers members)

/-- `representative` for each item of an array. -/
def representativeItems : List Json → List Json
  | [] => []
  | item :: rest => representative item :: representativeItems rest

/-- `representative` for each value in a list of members. -/
def representativeMembers : List (String × Json) → List (String × Json)
  | [] => []
  | (name, value) :: rest => (name, representative value) :: representativeMembers rest
end

mutual
theorem equal_iff (left right : Json) :
    left.equal right = true ↔ left.representative = right.representative := by
  -- Values of different kinds are not equal, and a representative has the kind of its values.
  cases left <;> cases right <;>
    simp only [equal, representative, Bool.false_eq_true, reduceCtorEq, bool.injEq, number.injEq,
      string.injEq, array.injEq, object.injEq, beq_iff_eq]
  case number.number left right => exact left.equal_iff right
  case array.array lefts rights => exact equalItems_iff lefts rights
  case object.object lefts rights => exact equalMembers_iff lefts rights
termination_by structural left

theorem equalItems_iff (lefts rights : List Json) :
    equalItems lefts rights = true ↔ representativeItems lefts = representativeItems rights := by
  cases lefts with
  | nil => cases rights <;> simp only [equalItems, representativeItems, Bool.false_eq_true, reduceCtorEq]
  | cons left lefts =>
      cases rights with
      | nil => simp only [equalItems, representativeItems, Bool.false_eq_true, reduceCtorEq]
      | cons right rights =>
          rw [equalItems, representativeItems, representativeItems, Bool.and_eq_true_iff,
            List.cons.injEq, equal_iff left right, equalItems_iff lefts rights]
termination_by structural lefts

theorem equalMembers_iff (lefts rights : List (String × Json)) :
    equalMembers lefts rights = true ↔
      representativeMembers lefts = representativeMembers rights := by
  cases lefts with
  | nil =>
      cases rights <;>
        simp only [equalMembers, representativeMembers, Bool.false_eq_true, reduceCtorEq]
  | cons left lefts =>
      cases rights with
      | nil => simp only [equalMembers, representativeMembers, Bool.false_eq_true, reduceCtorEq]
      | cons right rights =>
          rcases left with ⟨leftName, left⟩
          rcases right with ⟨rightName, right⟩
          rw [equalMembers, representativeMembers, representativeMembers, Bool.and_eq_true_iff,
            Bool.and_eq_true_iff, beq_iff_eq, List.cons.injEq, Prod.mk.injEq, equal_iff left right,
            equalMembers_iff lefts rights]
termination_by structural lefts
end

theorem equal_refl (value : Json) : value.equal value = true :=
  (equal_iff value value).mpr rfl

/-- What equals an equal value is equal. -/
theorem equal_trans (first second third : Json) (left : first.equal second = true)
    (right : second.equal third = true) : first.equal third = true :=
  (equal_iff first third).mpr (((equal_iff first second).mp left).trans
    ((equal_iff second third).mp right))

/-! ## Representatives by parts -/

theorem representativeItems_eq_map (items : List Json) :
    representativeItems items = items.map representative := by
  induction items with
  | nil => rfl
  | cons item rest ih => rw [representativeItems, List.map_cons, ih]

theorem representativeMembers_eq_mapValues (members : Members Json) :
    representativeMembers members = Members.mapValues representative members := by
  induction members with
  | nil => rfl
  | cons member rest ih =>
      rw [representativeMembers, ih]
      rfl

@[simp]
theorem representative_array (items : List Json) :
    representative (.array items) = .array (items.map representative) := by
  rw [representative, representativeItems_eq_map]

@[simp]
theorem representative_object (members : Members Json) :
    representative (.object members) = .object (Members.mapValues representative members) := by
  rw [representative, representativeMembers_eq_mapValues]

theorem members_representative (value : Json) :
    value.representative.members = Members.mapValues representative value.members := by
  cases value with
  | object members =>
      rw [representative_object]
      rfl
  | null | bool | number | string | array => rfl

theorem member?_representative (value : Json) (name : String) :
    value.representative.member? name = (value.member? name).map representative := by
  rw [member?, members_representative, Members.get?_mapValues]
  rfl

mutual
/-- Names keep their order when zeros lose their sign. -/
theorem WellFormed.representative (value : Json) (wellFormed : value.WellFormed) :
    value.representative.WellFormed := by
  cases value with
  | array items =>
      rw [WellFormed] at wellFormed
      rw [Json.representative, WellFormed]
      exact wellFormedItems_representative items wellFormed
  | object members =>
      rw [WellFormed] at wellFormed
      rw [Json.representative, WellFormed]
      refine ⟨?_, wellFormedMembers_representative members wellFormed.2⟩
      rw [representativeMembers_eq_mapValues]
      exact wellFormed.1.mapValues Json.representative
  | null | bool | number | string => trivial
termination_by structural value

theorem wellFormedItems_representative (items : List Json) (wellFormed : WellFormedItems items) :
    WellFormedItems (representativeItems items) := by
  cases items with
  | nil => trivial
  | cons item rest =>
      rw [WellFormedItems] at wellFormed
      rw [representativeItems, WellFormedItems]
      exact ⟨WellFormed.representative item wellFormed.1,
        wellFormedItems_representative rest wellFormed.2⟩
termination_by structural items

theorem wellFormedMembers_representative (members : List (String × Json))
    (wellFormed : WellFormedMembers members) : WellFormedMembers (representativeMembers members) := by
  cases members with
  | nil => trivial
  | cons member rest =>
      rcases member with ⟨name, value⟩
      rw [WellFormedMembers] at wellFormed
      rw [representativeMembers, WellFormedMembers]
      exact ⟨WellFormed.representative value wellFormed.1,
        wellFormedMembers_representative rest wellFormed.2⟩
termination_by structural members
end

theorem isNull_representative (value : Json) : value.representative.isNull = value.isNull := by
  cases value <;> rfl

end Json
end Emend
