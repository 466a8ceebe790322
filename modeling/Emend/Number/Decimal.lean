import Emend.Number.Binary64

namespace Emend

/-!
# Shortest decimals

The text of a binary64 number shows the fewest digits that read back as the
same number, and among those the nearest to it.  The search tries one digit,
two digits and so on; on each decimal grid only the two neighbours of the
exact value can be nearest, and whether one reads back is decided by the
rounding that readers use.
-/

/-- The number `digits * 10 ^ exponent`. -/
structure Decimal where
  digits : Nat
  exponent : Int
  deriving DecidableEq

namespace Decimal

/-- The decimal is read as the binary64 number of this rank. -/
def ReadsAs (decimal : Decimal) (rank : Nat) : Prop :=
  Binary64.rankOfDecimal decimal.digits decimal.exponent = rank

instance (decimal : Decimal) (rank : Nat) : Decidable (decimal.ReadsAs rank) :=
  inferInstanceAs (Decidable (_ = _))

/-- The position of the leading digit of the magnitude of a rank that is not
zero: the magnitude is at least `10 ^ leading` and below `10 ^ (leading + 1)`.
The margin `10 ^ 400` makes every such magnitude a number above one. -/
def leading (rank : Nat) : Int :=
  ((Nat.toDigits 10 (Binary64.units rank * Nat.pow 10 400 / Nat.pow 2 1074)).length : Int) - 401

/-- The better of the two decimals around the magnitude of a rank whose last
digit stands at `exponent`, if one of them reads back.  Of two that do, the
nearer is taken, and in a tie the one with an even last digit. -/
def onGrid? (rank : Nat) (exponent : Int) : Option Decimal :=
  let units := Binary64.units rank
  let (numerator, denominator) :=
    match exponent with
    | .ofNat power => (units, Nat.pow 2 1074 * Nat.pow 10 power)
    | .negSucc power => (units * Nat.pow 10 (power + 1), Nat.pow 2 1074)
  let below : Decimal := ⟨numerator / denominator, exponent⟩
  let above : Decimal := ⟨numerator / denominator + 1, exponent⟩
  if below.ReadsAs rank then
    if above.ReadsAs rank then
      some ⟨Binary64.nearestEven numerator denominator, exponent⟩
    else
      some below
  else if above.ReadsAs rank then
    some above
  else
    none

/-- The magnitude of a rank written out in full. -/
def exact (rank : Nat) : Decimal :=
  ⟨Binary64.units rank * Nat.pow 5 1074, -1074⟩

/-- The shortest decimal that reads as a rank.  Seventeen digits always
suffice; the exact decimal stands behind the search so that the result reads
back without that fact. -/
def shortest (rank : Nat) : Decimal :=
  if rank = 0 then
    ⟨0, 0⟩
  else
    let first := leading rank
    let found := (List.range 17).findSome? fun (more : Nat) => onGrid? rank (first - more)
    found.getD (exact rank)

/-- The digits without the zeros at their end, and the exponent that belongs to
them. -/
def withoutTrailingZeros (decimal : Decimal) : List Char × Int :=
  let digits := Nat.toDigits 10 decimal.digits
  let kept := (digits.reverse.dropWhile (· == '0')).reverse
  (kept, decimal.exponent + (digits.length - kept.length : Nat))

end Decimal
end Emend
