import Emend.Number.Binary64

namespace Emend

/-!
# Numbers of a document

A number is an integer of 64 bits, with or without sign, or a finite binary64
number.  The two kinds are kept apart: the integer one and the binary64 number
one are different values, although they have the same place in the order.
-/

/-- An integer between the least signed and the greatest unsigned number of 64
bits: at least `-2 ^ 63` and below `2 ^ 64`. -/
structure Integer64 where
  value : Int
  inRange : -9223372036854775808 ≤ value ∧ value < 18446744073709551616
  deriving DecidableEq

/-- The integer of a given value, if it is in range. -/
def Integer64.ofInt? (value : Int) : Option Integer64 :=
  if inRange : -9223372036854775808 ≤ value ∧ value < 18446744073709551616 then
    some ⟨value, inRange⟩
  else
    none

inductive Number where
  | integer (value : Integer64)
  | float (value : Binary64)
  deriving DecidableEq

namespace Number

/-- The number of an unsigned 64-bit word. -/
def ofUInt64 (word : UInt64) : Number :=
  .integer ⟨word.toNat, by have := word.toNat_lt; omega⟩

/-- The number of a signed 64-bit word. -/
def ofInt64 (word : Int64) : Number :=
  .integer ⟨word.toInt, by have := word.le_toInt; have := word.toInt_lt; omega⟩

/-- Equality of values: integers equal integers, binary64 numbers equal
binary64 numbers, and the two zeros are equal. -/
def equal : Number → Number → Bool
  | .integer left, .integer right => left.value == right.value
  | .float left, .float right => left.position == right.position
  | _, _ => false

/-- The place of a number in the order: the position of the binary64 number
nearest to it.  Different integers may share a place. -/
def position : Number → Int
  | .integer value => value.value.sign * Binary64.rankOfNat value.value.natAbs
  | .float value => value.position

end Number
end Emend
