import Mathlib.Order.Monotone.Basic
import Emend.Number
import Emend.Proofs.Number.Rounding

namespace Emend

/-!
# The nearest binary64 number

Magnitudes grow with their ranks, and two neighbouring ranks enclose each magnitude in
between.  Rounding chooses one of these two neighbours: the nearer one, and the one with an
even rank if both are as near.  So no other binary64 number is nearer to the magnitude, and
with the sign put back none is nearer to an integer.

All distances are measured in units, of which an integer is a whole number.
-/

namespace Binary64

/-! ## Magnitudes -/

/-- The magnitude of a rank that is given by a number of doublings and a significand.  The
significand may be the first one that is too large: this is the least one after one more
doubling. -/
theorem units_of_doublings {doublings significand : Nat} (reached : significand ≤ 2 ^ 53)
    (normal : doublings = 0 ∨ 2 ^ 52 ≤ significand) :
    units (doublings * 2 ^ 52 + significand) = significand * 2 ^ doublings := by
  have width : Nat.pow 2 52 = 4503599627370496 := rfl
  have doubled : Nat.pow 2 53 = 9007199254740992 := rfl
  simp only [Nat.reducePow] at reached normal ⊢
  simp only [units, Binary64.significand, shift, width, doubled]
  by_cases small : doublings * 4503599627370496 + significand < 9007199254740992
  · have none : doublings = 0 := by omega
    subst none
    have noShift : (0 * 4503599627370496 + significand) / 4503599627370496 - 1 = 0 := by omega
    rw [if_pos small, noShift, Nat.zero_mul, Nat.zero_add]
    rfl
  · rw [if_neg small]
    by_cases last : significand = 9007199254740992
    · have shifted :
          (doublings * 4503599627370496 + significand) / 4503599627370496 - 1 = doublings + 1 := by
        omega
      have least : 4503599627370496 + (doublings * 4503599627370496 + significand) %
          4503599627370496 = 4503599627370496 := by omega
      rw [shifted, least, last, Nat.pow_eq, Nat.pow_succ, Nat.mul_comm (2 ^ doublings),
        ← Nat.mul_assoc]
    · have shifted :
          (doublings * 4503599627370496 + significand) / 4503599627370496 - 1 = doublings := by
        omega
      have same : 4503599627370496 + (doublings * 4503599627370496 + significand) %
          4503599627370496 = significand := by omega
      rw [shifted, same]
      rfl

/-- Magnitudes grow with their ranks. -/
theorem units_strictMono : StrictMono units := by
  apply strictMono_nat_of_lt_succ
  intro rank
  let doublings := rank / 4503599627370496 - 1
  let significand := rank - doublings * 4503599627370496
  have split : rank = doublings * 2 ^ 52 + significand := by omega
  have next : rank + 1 = doublings * 2 ^ 52 + (significand + 1) := by omega
  rw [next, units_of_doublings (by omega) (by omega), split,
    units_of_doublings (by omega) (by omega)]
  exact Nat.mul_lt_mul_of_pos_right (Nat.lt_succ_self _) (Nat.two_pow_pos _)

theorem units_pos_iff (rank : Nat) : 0 < units rank ↔ 0 < rank :=
  units_strictMono.lt_iff_lt (a := 0)

/-- A magnitude that is doubled until it has 53 binary digits, or that had one more. -/
theorem doubled_bounds {magnitude : Nat} (notZero : magnitude ≠ 0) (small : magnitude ≤ 2 ^ 53) :
    2 ^ 52 ≤ magnitude * 2 ^ (52 - magnitude.log2) ∧
      magnitude * 2 ^ (52 - magnitude.log2) ≤ 2 ^ 53 := by
  have least : 2 ^ magnitude.log2 ≤ magnitude := Nat.log2_self_le notZero
  have below : magnitude < 2 ^ (magnitude.log2 + 1) := Nat.lt_log2_self
  constructor
  · calc 2 ^ 52
        ≤ 2 ^ (magnitude.log2 + (52 - magnitude.log2)) :=
          Nat.pow_le_pow_right (by decide) (by omega)
      _ = 2 ^ magnitude.log2 * 2 ^ (52 - magnitude.log2) := Nat.pow_add ..
      _ ≤ magnitude * 2 ^ (52 - magnitude.log2) := Nat.mul_le_mul_right _ least
  · by_cases short : magnitude.log2 ≤ 52
    · calc magnitude * 2 ^ (52 - magnitude.log2)
          ≤ 2 ^ (magnitude.log2 + 1) * 2 ^ (52 - magnitude.log2) :=
            Nat.mul_le_mul_right _ (Nat.le_of_lt below)
        _ = 2 ^ (magnitude.log2 + 1 + (52 - magnitude.log2)) := (Nat.pow_add ..).symm
        _ = 2 ^ 53 := congrArg (2 ^ ·) (by omega)
    · have none : 52 - magnitude.log2 = 0 := by omega
      rw [none, Nat.pow_zero, Nat.mul_one]
      exact small

/-- Each magnitude up to `2 ^ 53` has a rank when it has been doubled often enough. -/
theorem exists_rank_of_doublings {magnitude doublings : Nat} (small : magnitude ≤ 2 ^ 53)
    (many : 52 ≤ doublings) :
    Exists fun rank => rank ≤ (doublings + 2) * 2 ^ 52 ∧
      units rank = magnitude * 2 ^ doublings := by
  by_cases zero : magnitude = 0
  · refine ⟨0, Nat.zero_le _, ?_⟩
    rw [zero, Nat.zero_mul]
    rfl
  · let missing := 52 - magnitude.log2
    have bounds : 2 ^ 52 ≤ magnitude * 2 ^ missing ∧ magnitude * 2 ^ missing ≤ 2 ^ 53 :=
      doubled_bounds zero small
    refine ⟨(doublings - missing) * 2 ^ 52 + magnitude * 2 ^ missing, by omega, ?_⟩
    rw [units_of_doublings bounds.2 (.inr bounds.1), Nat.mul_assoc, ← Nat.pow_add]
    exact congrArg (magnitude * 2 ^ ·) (by omega)

/-! ## Rounding a magnitude -/

/-- Of the two whole numbers around a quotient the nearer one is taken, and the even one if both
are as near. -/
theorem nearestEven_by_remainder (numerator denominator : Nat) :
    (nearestEven numerator denominator = numerator / denominator ∧
        2 * (numerator % denominator) ≤ denominator ∧
        (2 * (numerator % denominator) = denominator -> numerator / denominator % 2 = 0)) ∨
      (nearestEven numerator denominator = numerator / denominator + 1 ∧
        denominator ≤ 2 * (numerator % denominator) ∧
        (2 * (numerator % denominator) = denominator -> (numerator / denominator + 1) % 2 = 0)) := by
  simp only [nearestEven]
  split
  · next up => exact .inr ⟨rfl, by omega, by omega⟩
  · next down => exact .inl ⟨rfl, by omega, by omega⟩

/-- The quotient that is rounded has at most 53 binary digits, and exactly as many if it is a
quotient by more than one. -/
theorem quotient_bounds (magnitude : Nat) :
    magnitude / 2 ^ (magnitude.log2 - 52) < 2 ^ 53 ∧
      (magnitude.log2 - 52 = 0 ∨ 2 ^ 52 ≤ magnitude / 2 ^ (magnitude.log2 - 52)) := by
  have positive := Nat.two_pow_pos (magnitude.log2 - 52)
  constructor
  · apply (Nat.div_lt_iff_lt_mul positive).mpr
    rw [← Nat.pow_add]
    exact Nat.lt_of_lt_of_le Nat.lt_log2_self (Nat.pow_le_pow_right (by decide) (by omega))
  · by_cases none : magnitude.log2 - 52 = 0
    · exact .inl none
    · right
      have notZero : magnitude ≠ 0 := by
        rintro rfl
        exact none rfl
      have exponent : 52 + (magnitude.log2 - 52) = magnitude.log2 := by omega
      apply (Nat.le_div_iff_mul_le positive).mpr
      rw [← Nat.pow_add, exponent]
      exact Nat.log2_self_le notZero

/-- The rank nearest to a magnitude is one of the two neighbours that enclose it: the nearer
one, and the even one if both are as near. -/
theorem nearestRank_neighbours (magnitude : Nat) :
    Exists fun below => units below ≤ magnitude ∧ magnitude < units (below + 1) ∧
      ((nearestRank magnitude 1 = below ∧ 2 * magnitude ≤ units below + units (below + 1) ∧
          (2 * magnitude = units below + units (below + 1) -> below % 2 = 0)) ∨
        (nearestRank magnitude 1 = below + 1 ∧ units below + units (below + 1) ≤ 2 * magnitude ∧
          (2 * magnitude = units below + units (below + 1) -> (below + 1) % 2 = 0))) := by
  let doublings := magnitude.log2 - 52
  let quotient := magnitude / 2 ^ doublings
  have bounds : quotient < 2 ^ 53 ∧ (doublings = 0 ∨ 2 ^ 52 ≤ quotient) := quotient_bounds magnitude
  have below : units (doublings * 2 ^ 52 + quotient) = quotient * 2 ^ doublings :=
    units_of_doublings (Nat.le_of_lt bounds.1) bounds.2
  have above : units (doublings * 2 ^ 52 + quotient + 1) =
      quotient * 2 ^ doublings + 2 ^ doublings := by
    rw [Nat.add_assoc, units_of_doublings (by omega) (by omega), Nat.succ_mul]
  have divided : quotient * 2 ^ doublings + magnitude % 2 ^ doublings = magnitude :=
    Nat.div_add_mod' magnitude (2 ^ doublings)
  have remainder : magnitude % 2 ^ doublings < 2 ^ doublings :=
    Nat.mod_lt _ (Nat.two_pow_pos doublings)
  have nearest : nearestRank magnitude 1 =
      doublings * 2 ^ 52 + nearestEven magnitude (2 ^ doublings) := by
    rw [nearestRank, Nat.div_one, Nat.one_mul]
    rfl
  refine ⟨doublings * 2 ^ 52 + quotient, by omega, by omega, ?_⟩
  -- The ranks are even and odd as the quotients are, since they differ by an even number.
  rcases nearestEven_by_remainder magnitude (2 ^ doublings) with
    ⟨same, less, even⟩ | ⟨same, more, even⟩
  · rw [same] at nearest
    exact .inl ⟨nearest, by omega, by omega⟩
  · rw [same, ← Nat.add_assoc] at nearest
    exact .inr ⟨nearest, by omega, by omega⟩

/-- No rank with either sign is nearer to a magnitude than the nearest rank.  If another number is
as near then the nearest rank is even and the other one is odd. -/
theorem nearestRank_nearest (magnitude : Nat) {rank : Nat} {other : Int}
    (signed : other = units rank ∨ other = -(units rank : Int)) :
    ((units (nearestRank magnitude 1) : Int) - magnitude).natAbs ≤ (other - magnitude).natAbs ∧
      (other ≠ units (nearestRank magnitude 1) ->
        (other - magnitude).natAbs =
          ((units (nearestRank magnitude 1) : Int) - magnitude).natAbs ->
        nearestRank magnitude 1 % 2 = 0 ∧ rank % 2 = 1) := by
  rcases nearestRank_neighbours magnitude with ⟨below, lower, upper, choice⟩
  have outside : other ≤ units below ∨ (units (below + 1) : Int) ≤ other := by
    rcases signed with rfl | rfl
    · rcases Nat.lt_or_ge below rank with above | reached
      · exact .inr (Int.ofNat_le.mpr (units_strictMono.monotone above))
      · exact .inl (Int.ofNat_le.mpr (units_strictMono.monotone reached))
    · left
      omega
  have standsAt {place : Nat} (same : other = units place) : rank = place := by
    apply units_strictMono.injective
    omega
  rcases choice with ⟨same, less, even⟩ | ⟨same, more, even⟩
  · rw [same]
    refine ⟨by omega, fun different asNear => ?_⟩
    have upperOne : rank = below + 1 := standsAt (by omega)
    omega
  · rw [same]
    refine ⟨by omega, fun different asNear => ?_⟩
    have lowerOne : rank = below := standsAt (by omega)
    omega

/-! ## Integers -/

/-- A number in units. -/
def quantity (number : Binary64) : Int :=
  if number.negative then -(units number.rank : Int) else units number.rank

/-- An integer in units. -/
def ofWhole (value : Int) : Int :=
  value * (Nat.pow 2 1074 : Nat)

theorem ofWhole_lt_iff {left right : Int} : left < right ↔ ofWhole left < ofWhole right := by
  have positive := twoPow_pos 1074
  rw [ofWhole, ofWhole]
  generalize Nat.pow 2 1074 = unit at positive ⊢
  exact (Int.mul_lt_mul_right (Int.natCast_pos.mpr positive)).symm

theorem ofWhole_eq_natAbs (value : Int) :
    ofWhole value =
      if value < 0 then -((value.natAbs * Nat.pow 2 1074 : Nat) : Int)
      else ((value.natAbs * Nat.pow 2 1074 : Nat) : Int) := by
  rw [ofWhole]
  generalize Nat.pow 2 1074 = unit
  split
  · next negative =>
      rw [Int.natCast_mul, Int.ofNat_natAbs_of_nonpos (Int.le_of_lt negative), Int.neg_mul, Int.neg_neg]
  · next positive =>
      rw [Int.natCast_mul, Int.natAbs_of_nonneg (Int.not_lt.mp positive)]

/-- How far a number is from an integer, in units. -/
def distance (number : Binary64) (value : Int) : Nat :=
  (number.quantity - ofWhole value).natAbs

/-- A number in units, counted in the direction of an integer. -/
def along (number : Binary64) (value : Int) : Int :=
  if value < 0 then -number.quantity else number.quantity

theorem distance_eq_along (number : Binary64) (value : Int) :
    number.distance value =
      (number.along value - (value.natAbs * Nat.pow 2 1074 : Nat)).natAbs := by
  rw [distance, ofWhole_eq_natAbs, along]
  generalize value.natAbs * Nat.pow 2 1074 = magnitude
  split <;> omega

theorem along_eq_units (number : Binary64) (value : Int) :
    number.along value = units number.rank ∨ number.along value = -(units number.rank : Int) := by
  rw [along, quantity]
  split <;> split <;> omega

theorem along_ne_of_quantity_ne {number other : Binary64}
    (different : other.quantity ≠ number.quantity) (value : Int) :
    other.along value ≠ number.along value := by
  rw [along, along]
  split <;> omega

/-- The number is nearest to the integer.  If another one is as near, it is the one with the even
rank, which is the one with the even significand. -/
structure NearestTo (number : Binary64) (value : Int) : Prop where
  nearest : forall other : Binary64, number.distance value ≤ other.distance value
  even : forall other : Binary64, other.quantity ≠ number.quantity ->
    other.distance value = number.distance value -> number.rank % 2 = 0

/-- Magnitudes stand as their ranks do, and so do numbers with signs. -/
theorem quantity_lt_iff {left right : Binary64} :
    left.quantity < right.quantity ↔ left.position < right.position := by
  have upward : units left.rank < units right.rank ↔ left.rank < right.rank :=
    units_strictMono.lt_iff_lt
  have downward : units right.rank < units left.rank ↔ right.rank < left.rank :=
    units_strictMono.lt_iff_lt
  have leftZero := units_pos_iff left.rank
  have rightZero := units_pos_iff right.rank
  rw [quantity, quantity, position, position]
  split <;> split <;> omega

/-- Numbers with exactly the value of an integer have no distance from it. -/
theorem NearestTo.quantity_eq {number other : Binary64} {value : Int}
    (nearest : number.NearestTo value) (exact : other.quantity = ofWhole value) :
    number.quantity = other.quantity := by
  have least := nearest.nearest other
  rw [distance, distance, exact] at least
  omega

/-- The numbers nearest to two integers do not stand the other way round. -/
theorem NearestTo.quantity_le {first second : Binary64} {left right : Int}
    (nearestLeft : first.NearestTo left) (nearestRight : second.NearestTo right)
    (less : left < right) : first.quantity ≤ second.quantity := by
  have apart := ofWhole_lt_iff.mp less
  have atLeft := nearestLeft.nearest second
  have atRight := nearestRight.nearest first
  rw [distance, distance] at atLeft atRight
  omega

/-- Integers up to `2 ^ 53` are binary64 numbers. -/
theorem exists_quantity_eq_ofWhole {value : Int} (small : value.natAbs ≤ 2 ^ 53) :
    Exists fun number : Binary64 => number.quantity = ofWhole value := by
  have many : 52 ≤ 1074 := by decide
  rcases exists_rank_of_doublings small many with ⟨rank, reached, exact⟩
  have finite : rank < rankLimit := Nat.lt_of_le_of_lt reached (by decide)
  refine ⟨⟨value < 0, rank, finite⟩, ?_⟩
  rw [quantity, ofWhole_eq_natAbs, Nat.pow_eq, ← exact]
  simp only [decide_eq_true_eq]

end Binary64

namespace Integer64

theorem rankOfNat_lt {magnitude : Nat} (reached : magnitude ≤ 2 ^ 64) :
    Binary64.rankOfNat magnitude < Binary64.rankLimit := by
  rcases Binary64.nearestRank_neighbours (magnitude * Nat.pow 2 1074) with
    ⟨below, lower, _, choice⟩
  have bound : Binary64.units (1086 * 2 ^ 52 + 2 ^ 52) = 2 ^ 52 * 2 ^ 1086 :=
    Binary64.units_of_doublings (by decide) (.inr (Nat.le_refl _))
  have same : 2 ^ 52 * 2 ^ 1086 = 2 ^ 64 * Nat.pow 2 1074 := by
    rw [Nat.pow_eq, ← Nat.pow_add, ← Nat.pow_add]
  have under : below ≤ 1086 * 2 ^ 52 + 2 ^ 52 := by
    apply Binary64.units_strictMono.le_iff_le.mp
    rw [bound, same]
    exact Nat.le_trans lower (Nat.mul_le_mul_right _ reached)
  have limit : Binary64.rankLimit = 9218868437227405312 := rfl
  rw [Binary64.rankOfNat, limit]
  omega

/-- The number nearest to an integer. -/
def nearest (value : Integer64) : Binary64 :=
  ⟨value.value < 0, Binary64.rankOfNat value.value.natAbs, by
    have inRange := value.inRange
    exact rankOfNat_lt (by omega)⟩

theorem along_nearest (value : Integer64) :
    value.nearest.along value.value = Binary64.units value.nearest.rank := by
  rw [Binary64.along, Binary64.quantity, nearest]
  by_cases negative : value.value < 0
  · simp only [negative, decide_true, if_true, Int.neg_neg]
  · simp only [negative, decide_false, Bool.false_eq_true, if_false]

theorem nearestTo_nearest (value : Integer64) : value.nearest.NearestTo value.value where
  nearest other := by
    rw [Binary64.distance_eq_along, Binary64.distance_eq_along, along_nearest]
    exact (Binary64.nearestRank_nearest _ (other.along_eq_units value.value)).1
  even other different asNear := by
    have apart := Binary64.along_ne_of_quantity_ne different value.value
    rw [Binary64.distance_eq_along, Binary64.distance_eq_along, along_nearest] at asNear
    rw [along_nearest] at apart
    exact ((Binary64.nearestRank_nearest _ (other.along_eq_units value.value)).2 apart asNear).1

/-- No other number is nearest to the integer. -/
theorem quantity_eq_of_nearestTo {value : Integer64} {number : Binary64}
    (nearest : number.NearestTo value.value) : number.quantity = value.nearest.quantity := by
  apply Classical.byContradiction
  intro different
  have asNear : number.distance value.value = value.nearest.distance value.value :=
    Nat.le_antisymm (nearest.nearest value.nearest) (value.nearestTo_nearest.nearest number)
  have even := nearest.even value.nearest (Ne.symm different) asNear.symm
  have apart := Binary64.along_ne_of_quantity_ne different value.value
  rw [along_nearest] at apart
  rw [Binary64.distance_eq_along, Binary64.distance_eq_along, along_nearest] at asNear
  have odd :=
    ((Binary64.nearestRank_nearest _ (number.along_eq_units value.value)).2 apart asNear).2
  omega

theorem position_nearest (value : Integer64) :
    (Number.integer value).position = value.nearest.position := by
  rw [Number.position, Binary64.position, nearest]
  simp only [decide_eq_true_eq]
  rcases Int.lt_trichotomy value.value 0 with negative | zero | positive
  · rw [if_pos negative, Int.sign_eq_neg_one_of_neg negative, Int.neg_one_mul]
  · have nothing : Binary64.rankOfNat 0 = 0 := by
      rw [Binary64.rankOfNat, Nat.zero_mul]
      exact Binary64.nearestRank_zero Nat.one_pos
    rw [zero, Int.sign_zero, Int.zero_mul, Int.natAbs_zero, nothing, if_neg (Int.lt_irrefl 0)]
    rfl
  · rw [if_neg (Int.lt_asymm positive), Int.sign_eq_one_of_pos positive, Int.one_mul]

end Integer64
end Emend
