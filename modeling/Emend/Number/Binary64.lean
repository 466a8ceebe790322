namespace Emend

/-!
# Finite binary64 numbers

A finite binary64 number is kept as a sign and a *rank*: the number of
nonnegative finite binary64 numbers below its magnitude.  Rank `0` is zero,
rank `1` the least subnormal, and the rank is also the bit pattern of the
magnitude.  Comparison is then comparison of integers, and nothing here uses
the arithmetic of the machine.

Magnitudes are measured in *units* of `2 ^ -1074`, the least positive number:
every finite binary64 number is a whole number of units.
-/

/-- The first rank that is no longer finite. -/
def Binary64.rankLimit : Nat := 2047 * Nat.pow 2 52

/-- A finite binary64 number.  Zero has two forms, one for each sign. -/
structure Binary64 where
  negative : Bool
  rank : Nat
  finite : rank < Binary64.rankLimit
  deriving DecidableEq

namespace Binary64

/-- The significand belonging to a rank: the rank itself below the first
doubling of the unit, afterwards a number of 53 binary digits. -/
def significand (rank : Nat) : Nat :=
  if rank < Nat.pow 2 53 then rank else Nat.pow 2 52 + rank % Nat.pow 2 52

/-- How often the unit is doubled for a rank. -/
def shift (rank : Nat) : Nat :=
  rank / Nat.pow 2 52 - 1

/-- The magnitude of a rank, in units. -/
def units (rank : Nat) : Nat :=
  significand rank * Nat.pow 2 (shift rank)

/-! ## Rounding -/

/-- The whole number nearest to a quotient; a half goes to the even
neighbour. -/
def nearestEven (numerator denominator : Nat) : Nat :=
  let quotient := numerator / denominator
  let remainder := numerator % denominator
  if denominator < 2 * remainder ∨ (2 * remainder = denominator ∧ quotient % 2 = 1) then
    quotient + 1
  else
    quotient

/-- The rank nearest to a quotient of units, a half going to the even
significand.  Ranks from `rankLimit` on stand for magnitudes too large. -/
def nearestRank (numerator denominator : Nat) : Nat :=
  let doublings := (numerator / denominator).log2 - 52
  doublings * Nat.pow 2 52 + nearestEven numerator (denominator * Nat.pow 2 doublings)

/-- The number with the given sign and rank, if the rank is finite. -/
def ofRank? (negative : Bool) (rank : Nat) : Option Binary64 :=
  if finite : rank < rankLimit then some ⟨negative, rank, finite⟩ else none

/-- The rank nearest to a whole number. -/
def rankOfNat (magnitude : Nat) : Nat :=
  nearestRank (magnitude * Nat.pow 2 1074) 1

/-- The rank nearest to `digits * 10 ^ exponent`.  Exponents past 1100 are cut
down to it, and those so small that the magnitude is below `10 ^ -1100` are
raised: the magnitude is too large, or rounds to zero, either way. -/
def rankOfDecimal (digits : Nat) (exponent : Int) : Nat :=
  let lowest : Int := -((Nat.toDigits 10 digits).length + 1100)
  match max lowest (min 1100 exponent) with
  | .ofNat power => nearestRank (digits * Nat.pow 10 power * Nat.pow 2 1074) 1
  | .negSucc power => nearestRank (digits * Nat.pow 2 1074) (Nat.pow 10 (power + 1))

/-! ## Order and bit patterns -/

/-- The position of a number on the line of all finite numbers.  Both zeros
have position `0`. -/
def position (number : Binary64) : Int :=
  if number.negative then -(number.rank : Int) else number.rank

/-- The 64 bits of a number. -/
def bits (number : Binary64) : Nat :=
  if number.negative then Nat.pow 2 63 + number.rank else number.rank

/-- The number with the given 64 bits; infinities and undefined values have
none. -/
def ofBits? (bits : Nat) : Option Binary64 :=
  ofRank? (decide (Nat.pow 2 63 ≤ bits)) (bits % Nat.pow 2 63)

/-- The number with the given 32 bits of the single format, which binary64
holds exactly; infinities and undefined values have none. -/
def ofSingleBits? (bits : Nat) : Option Binary64 :=
  let exponent := bits / Nat.pow 2 23 % Nat.pow 2 8
  let fraction := bits % Nat.pow 2 23
  if exponent = 255 then
    none
  else
    let significand := if exponent = 0 then fraction else Nat.pow 2 23 + fraction
    let units := significand * Nat.pow 2 (max exponent 1 + 924)
    ofRank? (decide (Nat.pow 2 31 ≤ bits)) (nearestRank units 1)

end Binary64
end Emend
