import Mathlib.Algebra.Order.Group.Nat
import Mathlib.Data.Nat.Log
import Emend.Number.Decimal

namespace Emend

/-!
# Rounding to binary64

The rank nearest to a quotient depends on its value alone, not on the two numbers that it is
a quotient of, and the magnitude of a rank is nearest to that rank.  So a decimal may be
written with more or fewer zeros at its end without being read as another number, and the
search for a shortest decimal always ends with one that reads back.
-/

namespace Binary64

/-! ## Quotients -/

theorem nearestEven_mul_right (numerator denominator : Nat) {factor : Nat}
    (positive : 0 < factor) :
    nearestEven (numerator * factor) (denominator * factor) =
      nearestEven numerator denominator := by
  have quotient := Nat.mul_div_mul_right numerator denominator positive
  have remainder := Nat.mul_mod_mul_right factor numerator denominator
  have above : denominator * factor < 2 * (numerator % denominator * factor) ↔
      denominator < 2 * (numerator % denominator) := by
    rw [← Nat.mul_assoc]
    exact Nat.mul_lt_mul_right positive
  have half : 2 * (numerator % denominator * factor) = denominator * factor ↔
      2 * (numerator % denominator) = denominator := by
    rw [← Nat.mul_assoc]
    exact Nat.mul_left_inj (Nat.ne_of_gt positive)
  simp only [nearestEven, quotient, remainder, above, half]

theorem nearestEven_of_mul (whole : Nat) {denominator : Nat} (positive : 0 < denominator) :
    nearestEven (whole * denominator) denominator = whole := by
  have quotient : whole * denominator / denominator = whole := Nat.mul_div_cancel whole positive
  have remainder : whole * denominator % denominator = 0 := Nat.mul_mod_left whole denominator
  rw [nearestEven, quotient, remainder]
  apply if_neg
  omega

theorem nearestEven_cases (numerator denominator : Nat) :
    nearestEven numerator denominator = numerator / denominator ∨
      nearestEven numerator denominator = numerator / denominator + 1 := by
  rw [nearestEven]
  split
  · exact Or.inr rfl
  · exact Or.inl rfl

theorem nearestRank_mul_right (numerator denominator : Nat) {factor : Nat}
    (positive : 0 < factor) :
    nearestRank (numerator * factor) (denominator * factor) =
      nearestRank numerator denominator := by
  rw [nearestRank, nearestRank, Nat.mul_div_mul_right numerator denominator positive,
    Nat.mul_right_comm denominator factor, nearestEven_mul_right _ _ positive]

/-- Equal quotients have the same nearest rank. -/
theorem nearestRank_congr {numerator denominator numerator' denominator' : Nat}
    (positive : 0 < denominator) (positive' : 0 < denominator')
    (same : numerator * denominator' = numerator' * denominator) :
    nearestRank numerator denominator = nearestRank numerator' denominator' :=
  calc nearestRank numerator denominator
      = nearestRank (numerator * denominator') (denominator * denominator') :=
        (nearestRank_mul_right _ _ positive').symm
    _ = nearestRank (numerator' * denominator) (denominator' * denominator) := by
        rw [same, Nat.mul_comm denominator]
    _ = nearestRank numerator' denominator' := nearestRank_mul_right _ _ positive

theorem nearestRank_zero {denominator : Nat} (positive : 0 < denominator) :
    nearestRank 0 denominator = 0 := by
  have noDoubling : (0 / denominator).log2 - 52 = 0 := by
    rw [Nat.zero_div]
    rfl
  have nothing := nearestEven_of_mul 0 (Nat.mul_pos positive (Nat.two_pow_pos 0))
  rw [Nat.zero_mul] at nothing
  rw [nearestRank]
  simp only [noDoubling, Nat.pow_eq, nothing, Nat.zero_mul]

/-! ## Ranks -/

/-- A significand of 53 binary digits, doubled some times. -/
theorem log2_doubled {significand : Nat} (least : 2 ^ 52 ≤ significand)
    (most : significand < 2 ^ 53) (doublings : Nat) :
    (significand * 2 ^ doublings).log2 = 52 + doublings := by
  have positive := Nat.two_pow_pos doublings
  have notZero : significand * 2 ^ doublings ≠ 0 := Nat.mul_ne_zero (by omega) (by omega)
  apply (Nat.log2_eq_iff notZero).mpr
  constructor
  · rw [Nat.pow_add]
    exact Nat.mul_le_mul_right _ least
  · rw [Nat.add_right_comm, Nat.pow_add]
    exact Nat.mul_lt_mul_of_pos_right most positive

/-- The magnitude of a rank is nearest to that rank. -/
theorem nearestRank_units (rank : Nat) : nearestRank (units rank) 1 = rank := by
  have width : Nat.pow 2 52 = 4503599627370496 := rfl
  have doubled : Nat.pow 2 53 = 9007199254740992 := rfl
  simp only [nearestRank, units, significand, shift, Nat.div_one, Nat.one_mul, width, doubled,
    Nat.pow_eq]
  by_cases small : rank < 9007199254740992
  · have noShift : rank / 4503599627370496 - 1 = 0 := by omega
    have noDoubling : rank.log2 - 52 = 0 := by
      apply Nat.sub_eq_zero_of_le
      apply Nat.le_of_lt_succ
      by_cases zero : rank = 0
      · rw [zero]
        decide
      · exact (Nat.log2_lt zero).mpr small
    have exact := nearestEven_of_mul rank Nat.one_pos
    rw [Nat.mul_one] at exact
    rw [if_pos small, noShift, Nat.pow_zero, Nat.mul_one, noDoubling, Nat.pow_zero, exact,
      Nat.zero_mul, Nat.zero_add]
  · rw [if_neg small]
    generalize shifted : rank / 4503599627370496 - 1 = doublings
    rw [log2_doubled (by omega) (by omega), Nat.add_sub_cancel_left,
      nearestEven_of_mul _ (Nat.two_pow_pos doublings)]
    omega

/-- A whole number may be written with as many places behind the point as the power of a half
that is its unit. -/
theorem nearestRank_of_places (whole places : Nat) :
    nearestRank (whole * Nat.pow 5 places * Nat.pow 2 places) (10 ^ places) =
      nearestRank whole 1 := by
  apply nearestRank_congr (Nat.pow_pos (by decide)) Nat.one_pos
  rw [Nat.mul_one, Nat.mul_assoc]
  exact congrArg (whole * ·) (Nat.mul_pow 5 2 places).symm

/-- What is too large has a rank beyond the finite ones. -/
theorem rankLimit_le_nearestRank {magnitude doublings : Nat} (many : 2099 ≤ doublings)
    (large : 2 ^ doublings ≤ magnitude) : rankLimit ≤ nearestRank magnitude 1 := by
  have notZero : magnitude ≠ 0 :=
    Nat.ne_of_gt (Nat.lt_of_lt_of_le (Nat.two_pow_pos doublings) large)
  have reached : doublings ≤ magnitude.log2 := (Nat.le_log2 notZero).mpr large
  rw [nearestRank, Nat.div_one]
  have enough : 2047 ≤ magnitude.log2 - 52 := by omega
  exact Nat.le_trans (Nat.mul_le_mul_right _ enough) (Nat.le_add_right _ _)

/-! ## Decimals -/

/-- The rank nearest to `digits * 10 ^ exponent`, whatever the exponent. -/
def rankAt (digits : Nat) (exponent : Int) : Nat :=
  nearestRank (digits * 10 ^ exponent.toNat * Nat.pow 2 1074) (10 ^ (-exponent).toNat)

/-- The exponent by which readers replace one that is too large or too small. -/
def withinReach (digits : Nat) (exponent : Int) : Int :=
  max (-((Nat.toDigits 10 digits).length + 1100)) (min 1100 exponent)

theorem rankOfDecimal_eq (digits : Nat) (exponent : Int) :
    rankOfDecimal digits exponent = rankAt digits (withinReach digits exponent) := by
  rw [rankOfDecimal, withinReach]
  generalize max (-(((Nat.toDigits 10 digits).length : Int) + 1100)) (min 1100 exponent) = reached
  cases reached with
  | ofNat power =>
      have opposite : (-(Int.ofNat power)).toNat = 0 := Int.toNat_neg_natCast power
      rw [rankAt, opposite, Nat.pow_zero]
      rfl
  | negSucc power =>
      rw [rankAt]
      change _ = nearestRank (digits * 1 * Nat.pow 2 1074) (10 ^ (power + 1))
      rw [Nat.mul_one]
      rfl

theorem rankAt_mul_pow (digits zeros : Nat) (exponent : Int) :
    rankAt (digits * 10 ^ zeros) exponent = rankAt digits (exponent + zeros) := by
  apply nearestRank_congr (Nat.pow_pos (by decide)) (Nat.pow_pos (by decide))
  generalize Nat.pow 2 1074 = unit
  have exponents : zeros + exponent.toNat + (-(exponent + zeros)).toNat =
      (exponent + zeros).toNat + (-exponent).toNat := by omega
  have powers : 10 ^ zeros * 10 ^ exponent.toNat * 10 ^ (-(exponent + zeros)).toNat =
      10 ^ (exponent + zeros).toNat * 10 ^ (-exponent).toNat := by
    rw [← Nat.pow_add, ← Nat.pow_add, ← Nat.pow_add, exponents]
  calc digits * 10 ^ zeros * 10 ^ exponent.toNat * unit * 10 ^ (-(exponent + zeros)).toNat
      = digits * unit *
          (10 ^ zeros * 10 ^ exponent.toNat * 10 ^ (-(exponent + zeros)).toNat) := by
        ac_rfl
    _ = digits * 10 ^ (exponent + zeros).toNat * unit * 10 ^ (-exponent).toNat := by
        rw [powers]
        ac_rfl

theorem rankOfDecimal_zero (exponent : Int) : rankOfDecimal 0 exponent = 0 := by
  rw [rankOfDecimal_eq, rankAt]
  generalize Nat.pow 2 1074 = unit
  rw [Nat.zero_mul, Nat.zero_mul]
  exact nearestRank_zero (Nat.pow_pos (by decide))

theorem length_toDigits_mul_pow {digits : Nat} (notZero : 0 < digits) (zeros : Nat) :
    (Nat.toDigits 10 (digits * 10 ^ zeros)).length = (Nat.toDigits 10 digits).length + zeros := by
  induction zeros with
  | zero => rw [Nat.pow_zero, Nat.mul_one, Nat.add_zero]
  | succ zeros ih =>
      have notZero' : 0 < digits * 10 ^ zeros := Nat.mul_pos notZero (Nat.pow_pos (by decide))
      have last := Nat.toDigits_append_toDigits (b := 10) (by decide) notZero' (by decide : 0 < 10)
      rw [Nat.add_zero] at last
      rw [Nat.pow_succ, ← Nat.mul_assoc, Nat.mul_comm _ 10, ← last, List.length_append, ih]
      rfl

theorem twoPow_pos (doublings : Nat) : 0 < Nat.pow 2 doublings := Nat.two_pow_pos doublings

/-- A decimal past the largest exponent is too large. -/
theorem rankLimit_le_rankAt {digits : Nat} (notZero : 0 < digits) {exponent : Int}
    (large : 1100 ≤ exponent) : rankLimit ≤ rankAt digits exponent := by
  have opposite : (-exponent).toNat = 0 := by omega
  have power : 2099 ≤ 3 * exponent.toNat := by omega
  have positive := twoPow_pos 1074
  rw [rankAt, opposite, Nat.pow_zero]
  generalize Nat.pow 2 1074 = unit at positive ⊢
  apply rankLimit_le_nearestRank power
  calc 2 ^ (3 * exponent.toNat)
      = 8 ^ exponent.toNat := Nat.pow_mul 2 3 exponent.toNat
    _ ≤ 10 ^ exponent.toNat := Nat.pow_le_pow_left (by decide) _
    _ ≤ digits * 10 ^ exponent.toNat := Nat.le_mul_of_pos_left _ notZero
    _ ≤ digits * 10 ^ exponent.toNat * unit := Nat.le_mul_of_pos_right _ positive

theorem le_of_rankOfDecimal_lt {digits zeros : Nat} (notZero : 0 < digits) {exponent : Int}
    (finite : rankOfDecimal (digits * 10 ^ zeros) exponent < rankLimit) :
    exponent + zeros ≤ 1100 := by
  apply Int.not_lt.mp
  intro beyond
  have reached : 1100 ≤ withinReach (digits * 10 ^ zeros) exponent + zeros := by
    rw [withinReach]
    omega
  have large := rankLimit_le_rankAt notZero reached
  rw [← rankAt_mul_pow, ← rankOfDecimal_eq] at large
  exact Nat.not_lt.mpr large finite

/-- Zeros at the end of the digits may be moved into the exponent and back. -/
theorem rankOfDecimal_mul_pow {digits zeros : Nat} {exponent : Int}
    (reachable : exponent + zeros ≤ 1100) :
    rankOfDecimal (digits * 10 ^ zeros) exponent = rankOfDecimal digits (exponent + zeros) := by
  by_cases zero : digits = 0
  · rw [zero, Nat.zero_mul, rankOfDecimal_zero, rankOfDecimal_zero]
  · have notZero : 0 < digits := Nat.pos_of_ne_zero zero
    -- The lower bound moves along with the exponent, since it counts the zeros among the digits.
    have same : withinReach (digits * 10 ^ zeros) exponent + zeros =
        withinReach digits (exponent + zeros) := by
      rw [withinReach, withinReach, length_toDigits_mul_pow notZero]
      omega
    rw [rankOfDecimal_eq, rankOfDecimal_eq, rankAt_mul_pow, same]

end Binary64

/-! ## Shortest decimals -/

namespace Decimal

theorem readsAs_of_neighbour {rank numerator denominator : Nat} {exponent : Int}
    {decimal : Decimal}
    (found : (if ReadsAs ⟨numerator / denominator, exponent⟩ rank then
        if ReadsAs ⟨numerator / denominator + 1, exponent⟩ rank then
          some (⟨Binary64.nearestEven numerator denominator, exponent⟩ : Decimal)
        else some ⟨numerator / denominator, exponent⟩
      else if ReadsAs ⟨numerator / denominator + 1, exponent⟩ rank then
        some ⟨numerator / denominator + 1, exponent⟩
      else none) = some decimal) : decimal.ReadsAs rank := by
  split at found
  · next below =>
      split at found
      · next above =>
          cases found
          rcases Binary64.nearestEven_cases numerator denominator with same | same
          · rw [same]
            exact below
          · rw [same]
            exact above
      · cases found
        exact below
  · split at found
    · next above =>
        cases found
        exact above
    · cases found

theorem readsAs_onGrid? {rank : Nat} {exponent : Int} {decimal : Decimal}
    (found : onGrid? rank exponent = some decimal) : decimal.ReadsAs rank := by
  -- The unit is made a variable, so that no step computes the power.
  unfold onGrid? at found
  generalize Nat.pow 2 1074 = unit at found
  cases exponent with
  | ofNat power => exact readsAs_of_neighbour found
  | negSucc power => exact readsAs_of_neighbour found

theorem readsAs_exact (rank : Nat) : (exact rank).ReadsAs rank := by
  have reached : Binary64.withinReach (Binary64.units rank * Nat.pow 5 1074) (-1074) = -1074 := by
    rw [Binary64.withinReach]
    omega
  rw [ReadsAs, exact, Binary64.rankOfDecimal_eq, reached, Binary64.rankAt]
  have opposite : (-(-1074) : Int).toNat = 1074 := rfl
  have none : (-1074 : Int).toNat = 0 := rfl
  rw [opposite, none, Nat.pow_zero, Nat.mul_one]
  exact (Binary64.nearestRank_of_places (Binary64.units rank) 1074).trans
    (Binary64.nearestRank_units rank)

/-- The shortest decimal of a rank is read as that rank. -/
theorem readsAs_shortest (rank : Nat) : (shortest rank).ReadsAs rank := by
  rw [shortest]
  split
  · next zero =>
      rw [zero]
      exact Binary64.rankOfDecimal_zero 0
  · simp only
    cases found : (List.range 17).findSome? fun (more : Nat) =>
        onGrid? rank (leading rank - more) with
    | none => exact readsAs_exact rank
    | some decimal =>
        rcases List.exists_of_findSome?_eq_some found with ⟨more, _, onGrid⟩
        exact readsAs_onGrid? onGrid

end Decimal
end Emend
