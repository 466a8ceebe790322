import Emend.Number
import Emend.Number.Decimal

namespace Emend

/-!
# The text of numbers

Integers are written plainly.  Binary64 numbers show their shortest decimal
with a point or an exponent, so that they never read as integers.

A reader sees a *numeral*: sign, digits before the point, digits behind it and
an exponent.  A numeral without point and exponent is an integer if it fits
one; every other numeral is rounded to binary64.
-/

/-! ## Writing -/

/-- Decimals are written with a point alone from `10 ^ lowest` up to below
`10 ^ highest`, and with an exponent outside. -/
structure Numeral.Layout where
  lowest : Int
  highest : Int

/-- The point alone serves from `0.00001` to below `10000000000000000.0`. -/
def Numeral.layout : Numeral.Layout := ⟨-5, 16⟩

/-- The text of a decimal given by its significant digits and the exponent of
the last one.  A point is always followed by a digit; an exponent always shows
its sign. -/
def Numeral.writeDecimal (layout : Numeral.Layout) (digits : List Char) (exponent : Int) :
    List Char :=
  let scientific := exponent + digits.length - 1
  if layout.lowest ≤ scientific ∧ scientific < layout.highest then
    if 0 ≤ exponent then
      digits ++ List.replicate exponent.toNat '0' ++ ['.', '0']
    else if 0 ≤ scientific then
      let whole := (scientific + 1).toNat
      digits.take whole ++ '.' :: digits.drop whole
    else
      '0' :: '.' :: List.replicate (-scientific - 1).toNat '0' ++ digits
  else
    let sign := if scientific < 0 then '-' else '+'
    let fraction := if digits.length ≤ 1 then [] else '.' :: digits.drop 1
    digits.take 1 ++ fraction ++ 'e' :: sign :: Nat.toDigits 10 scientific.natAbs

/-- The text of a binary64 number. -/
def Binary64.write (number : Binary64) : List Char :=
  let magnitude :=
    if number.rank = 0 then
      ['0', '.', '0']
    else
      let (digits, exponent) := (Decimal.shortest number.rank).withoutTrailingZeros
      Numeral.writeDecimal Numeral.layout digits exponent
  if number.negative then '-' :: magnitude else magnitude

/-- The text of an integer. -/
def Integer64.write (number : Integer64) : List Char :=
  let magnitude := Nat.toDigits 10 number.value.natAbs
  if number.value < 0 then '-' :: magnitude else magnitude

/-- The text of a number. -/
def Number.write : Number → List Char
  | .integer value => value.write
  | .float value => value.write

/-! ## Reading -/

/-- The parts of a written number. -/
structure Numeral where
  negative : Bool
  whole : List Char
  fraction : List Char
  exponent : Option Int
  deriving DecidableEq

namespace Numeral

/-- The binary64 number nearest to a numeral, if one is finite. -/
def toBinary64? (numeral : Numeral) : Option Binary64 :=
  let digits := Nat.ofDigitChars 10 (numeral.whole ++ numeral.fraction) 0
  let exponent := numeral.exponent.getD 0 - numeral.fraction.length
  Binary64.ofRank? numeral.negative (Binary64.rankOfDecimal digits exponent)

/-- The integer of a numeral without point and exponent, if it fits one.  The
integers have no negative zero. -/
def toInteger? (numeral : Numeral) : Option Integer64 :=
  let magnitude := Nat.ofDigitChars 10 numeral.whole 0
  if numeral.fraction ≠ [] ∨ numeral.exponent.isSome then
    none
  else if numeral.negative then
    if magnitude = 0 then none
    else if magnitude ≤ Nat.pow 2 63 then Integer64.ofInt? (-magnitude)
    else none
  else
    Integer64.ofInt? magnitude

/-- The number that a numeral denotes.  It denotes none when it is too large
for binary64. -/
def toNumber? (numeral : Numeral) : Option Number :=
  match numeral.toInteger? with
  | some value => some (.integer value)
  | none => numeral.toBinary64?.map .float

/-- A sign, if one stands in front. -/
def readSign : List Char → Bool × List Char
  | '-' :: rest => (true, rest)
  | '+' :: rest => (false, rest)
  | rest => (false, rest)

/-- An exponent with its mark, if one stands in front; `none` when a mark is not
followed by digits. -/
def readExponent? (text : List Char) : Option (Option Int × List Char) :=
  match text with
  | mark :: rest =>
      if mark = 'e' ∨ mark = 'E' then
        let (negative, rest) := readSign rest
        let (digits, rest) := rest.span Char.isDigit
        if digits.isEmpty then
          none
        else
          let magnitude : Int := Nat.ofDigitChars 10 digits 0
          some (some (if negative then -magnitude else magnitude), rest)
      else
        some (none, text)
  | [] => some (none, [])

/-- A minus sign, if one stands in front. -/
def readMinus : List Char → Bool × List Char
  | '-' :: rest => (true, rest)
  | rest => (false, rest)

/-- The digits behind a point, if one stands in front; `none` when a point is
not followed by digits. -/
def readFraction? : List Char → Option (List Char × List Char)
  | '.' :: rest =>
      let (fraction, rest) := rest.span Char.isDigit
      if fraction.isEmpty then none else some (fraction, rest)
  | rest => some ([], rest)

/-- A numeral of the interchange format, and what follows it: no plus sign, no
leading zeros, and digits on both sides of a point. -/
def read? (text : List Char) : Option (Numeral × List Char) := do
  let (negative, afterSign) := readMinus text
  let (whole, afterWhole) := afterSign.span Char.isDigit
  if whole.isEmpty ∨ (whole.head? = some '0' ∧ whole.length ≠ 1) then
    none
  else
    let (fraction, afterFraction) ← readFraction? afterWhole
    let (exponent, rest) ← readExponent? afterFraction
    some (⟨negative, whole, fraction, exponent⟩, rest)

end Numeral

end Emend
