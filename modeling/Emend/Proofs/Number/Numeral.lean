import Mathlib.Data.List.Basic
import Mathlib.Data.List.TakeDrop
import Mathlib.Data.List.TakeWhile
import Emend.Number.Numeral
import Emend.Proofs.Number.Rounding
import Emend.Proofs.Path.Lexeme

namespace Emend
namespace Numeral

/-!
# Numbers are read back

What is written for a number is the text of a numeral, and the reader takes exactly that
numeral from the front of a text if the number cannot go on behind it.  The numeral denotes the
number: an integer shows all its digits, and a binary64 number shows a decimal that is read as
its rank, whichever layout moves the point and the zeros about.
-/

open Emend.Path (StopsAt stopsAt_cons takeWhile_run dropWhile_run ne_of_isDigit)

/-! ## The text of a numeral -/

/-- An exponent with its mark and its sign. -/
def powerChars : Option Int -> List Char
  | none => []
  | some exponent =>
      'e' :: (if exponent < 0 then '-' else '+') :: Nat.toDigits 10 exponent.natAbs

/-- A point and the digits behind it, if there are any. -/
def pointChars : List Char -> List Char
  | [] => []
  | fraction => '.' :: fraction

theorem pointChars_of_ne_nil {fraction : List Char} (filled : fraction ≠ []) :
    pointChars fraction = '.' :: fraction := by
  cases fraction with
  | nil => exact absurd rfl filled
  | cons c others => rfl

/-- A numeral behind its sign. -/
def body (numeral : Numeral) : List Char :=
  numeral.whole ++ (pointChars numeral.fraction ++ powerChars numeral.exponent)

def chars (numeral : Numeral) : List Char :=
  if numeral.negative then '-' :: numeral.body else numeral.body

/-- The parts of the numeral are as the reader wants them. -/
structure Spelled (numeral : Numeral) : Prop where
  whole : forall c, c ∈ numeral.whole -> c.isDigit = true
  fraction : forall c, c ∈ numeral.fraction -> c.isDigit = true
  notEmpty : numeral.whole ≠ []
  noLeadingZero : numeral.whole.head? = some '0' -> numeral.whole.length = 1

/-- Whether a number may go on with a character. -/
def goesOn (c : Char) : Bool :=
  c.isDigit || c == '.' || c == 'e' || c == 'E'

/-! ## Reading the parts -/

theorem span_run {p : Char -> Bool} {run rest : List Char}
    (belongs : forall c, c ∈ run -> p c = true) (stops : StopsAt p rest) :
    (run ++ rest).span p = (run, rest) := by
  rw [List.span_eq_takeWhile_dropWhile, takeWhile_run belongs stops, dropWhile_run belongs stops]

theorem stopsAt_isDigit {rest : List Char} (ends : StopsAt goesOn rest) :
    StopsAt Char.isDigit rest := by
  intro c tail begins
  have stops := ends c tail begins
  simp only [goesOn, Bool.or_eq_false_iff] at stops
  exact stops.1.1.1

theorem isDigit_toDigits (value : Nat) :
    forall c, c ∈ Nat.toDigits 10 value -> c.isDigit = true :=
  fun _ listed => Nat.isDigit_of_mem_toDigits (by decide) (by decide) listed

theorem readExponent?_power (exponent : Option Int) {rest : List Char}
    (ends : StopsAt goesOn rest) :
    readExponent? (powerChars exponent ++ rest) = some (exponent, rest) := by
  cases exponent with
  | none =>
      cases rest with
      | nil => rfl
      | cons c tail =>
          have stops := ends c tail rfl
          simp only [goesOn, Bool.or_eq_false_iff, beq_eq_false_iff_ne] at stops
          have unmarked : ¬ (c = 'e' ∨ c = 'E') := fun marked =>
            marked.elim stops.1.2 stops.2
          exact if_neg unmarked
  | some exponent =>
      have present : (Nat.toDigits 10 exponent.natAbs).isEmpty = false :=
        List.isEmpty_eq_false_iff.mpr Nat.toDigits_ne_nil
      have run := span_run (isDigit_toDigits exponent.natAbs) (stopsAt_isDigit ends)
      by_cases negative : exponent < 0
      · have value : -(exponent.natAbs : Int) = exponent := by omega
        simp only [powerChars, readExponent?, readSign, if_pos negative, List.cons_append,
          true_or, if_true, run, present, Nat.ofDigitChars_ten_toDigits, value,
          Bool.false_eq_true, if_false]
      · have value : (exponent.natAbs : Int) = exponent := by omega
        simp only [powerChars, readExponent?, readSign, if_neg negative, List.cons_append,
          true_or, if_true, run, present, Nat.ofDigitChars_ten_toDigits, value,
          Bool.false_eq_true, if_false]

theorem stopsAt_power (exponent : Option Int) {rest : List Char} (ends : StopsAt goesOn rest) :
    StopsAt Char.isDigit (powerChars exponent ++ rest) := by
  cases exponent with
  | none => exact stopsAt_isDigit ends
  | some exponent => exact stopsAt_cons _ rfl

theorem stopsAt_point (fraction : List Char) (exponent : Option Int) {rest : List Char}
    (ends : StopsAt goesOn rest) :
    StopsAt Char.isDigit (pointChars fraction ++ (powerChars exponent ++ rest)) := by
  cases fraction with
  | nil => exact stopsAt_power exponent ends
  | cons c fraction => exact stopsAt_cons _ rfl

theorem ne_minus_of_spelled {numeral : Numeral} (spelled : numeral.Spelled) {c : Char}
    {tail : List Char} (begins : numeral.whole = c :: tail) : c ≠ '-' := by
  apply ne_of_isDigit (spelled.whole c _) (by decide)
  rw [begins]
  exact List.mem_cons_self

theorem readMinus_chars {numeral : Numeral} (spelled : numeral.Spelled) (rest : List Char) :
    readMinus (numeral.chars ++ rest) = (numeral.negative, numeral.body ++ rest) := by
  rw [chars]
  cases numeral.negative with
  | true => rfl
  | false =>
      cases begins : numeral.whole with
      | nil => exact absurd begins spelled.notEmpty
      | cons c tail =>
          have noMinus := ne_minus_of_spelled spelled begins
          simp only [body, begins, Bool.false_eq_true, if_false, List.cons_append]
          rw [readMinus]
          rintro others same
          exact noMinus (List.cons.inj same).1

theorem readFraction?_point {fraction : List Char}
    (digits : forall c, c ∈ fraction -> c.isDigit = true) (exponent : Option Int)
    {rest : List Char} (ends : StopsAt goesOn rest) :
    readFraction? (pointChars fraction ++ (powerChars exponent ++ rest)) =
      some (fraction, powerChars exponent ++ rest) := by
  cases fraction with
  | cons c others =>
      have run := span_run digits (stopsAt_power exponent ends)
      rw [pointChars, List.cons_append, readFraction?, run]
      · rfl
      · rintro ⟨⟩
  | nil =>
      rw [pointChars, List.nil_append, readFraction?]
      rintro others same
      cases exponent with
      | none =>
          have stops := ends '.' others same
          cases stops
      | some exponent => cases (List.cons.inj same).1

theorem read?_chars {numeral : Numeral} (spelled : numeral.Spelled) {rest : List Char}
    (ends : StopsAt goesOn rest) : read? (numeral.chars ++ rest) = some (numeral, rest) := by
  have run : (numeral.body ++ rest).span Char.isDigit = (numeral.whole,
      pointChars numeral.fraction ++ (powerChars numeral.exponent ++ rest)) := by
    rw [body, List.append_assoc, List.append_assoc]
    exact span_run spelled.whole (stopsAt_point _ _ ends)
  have proper : ¬ (numeral.whole.isEmpty = true ∨
      numeral.whole.head? = some '0' ∧ numeral.whole.length ≠ 1) := by
    rintro (empty | leading)
    · exact spelled.notEmpty (List.isEmpty_iff.mp empty)
    · exact leading.2 (spelled.noLeadingZero leading.1)
  simp only [read?, readMinus_chars spelled, run, if_neg proper,
    readFraction?_point spelled.fraction _ ends, readExponent?_power _ ends,
    Option.bind_eq_bind, Option.bind_some]

/-! ## The numerals of integers -/

theorem head?_toDigits_ne_zero (value : Nat) (notZero : value ≠ 0) :
    (Nat.toDigits 10 value).head? ≠ some '0' := by
  induction value using Nat.strongRecOn with
  | ind value ih =>
      by_cases small : value < 10
      · rw [Nat.toDigits_of_lt_base small]
        intro same
        exact notZero (Nat.digitChar_eq_zero.mp (Option.some.inj same))
      · have large : 10 ≤ value := Nat.not_lt.mp small
        rw [Nat.toDigits_of_base_le (by decide) large, List.head?_append_of_ne_nil _ Nat.toDigits_ne_nil]
        exact ih (value / 10) (by omega) (by omega)

theorem noLeadingZero_toDigits (value : Nat) (leading : (Nat.toDigits 10 value).head? = some '0') :
    (Nat.toDigits 10 value).length = 1 := by
  by_cases zero : value = 0
  · rw [zero, Nat.toDigits_zero]
    rfl
  · exact absurd leading (head?_toDigits_ne_zero value zero)

/-- The numeral by which an integer is written. -/
def ofInteger (value : Integer64) : Numeral :=
  ⟨decide (value.value < 0), Nat.toDigits 10 value.value.natAbs, [], none⟩

theorem chars_ofInteger (value : Integer64) : (ofInteger value).chars = value.write := by
  rw [chars, Integer64.write]
  simp only [ofInteger, body, pointChars, powerChars, List.append_nil, decide_eq_true_eq]

theorem spelled_ofInteger (value : Integer64) : (ofInteger value).Spelled where
  whole := isDigit_toDigits _
  fraction c listed := by cases listed
  notEmpty := Nat.toDigits_ne_nil
  noLeadingZero := noLeadingZero_toDigits _

theorem toNumber?_ofInteger (value : Integer64) :
    (ofInteger value).toNumber? = some (.integer value) := by
  have found : (ofInteger value).toInteger? = some value := by
    rcases value with ⟨value, inRange⟩
    have integral : ¬ (([] : List Char) ≠ [] ∨ (none : Option Int).isSome = true) := by
      rintro (filled | present)
      · exact filled rfl
      · cases present
    simp only [toInteger?, ofInteger, if_neg integral, Nat.ofDigitChars_ten_toDigits,
      decide_eq_true_eq]
    by_cases negative : value < 0
    · have notZero : value.natAbs ≠ 0 := by omega
      have small : value.natAbs ≤ Nat.pow 2 63 := by
        change value.natAbs ≤ 9223372036854775808
        omega
      have same : -(value.natAbs : Int) = value := by omega
      rw [if_pos negative, if_neg notZero, if_pos small, same, Integer64.ofInt?, dif_pos inRange]
    · have same : (value.natAbs : Int) = value := by omega
      rw [if_neg negative, same, Integer64.ofInt?, dif_pos inRange]
  rw [toNumber?, found]

/-! ## The numerals of decimals -/

/-- Digits that do not begin with zero. -/
structure Significant (digits : List Char) : Prop where
  ascii : forall c, c ∈ digits -> c.isDigit = true
  notEmpty : digits ≠ []
  noLeadingZero : digits.head? ≠ some '0'

/-- The numeral by which a decimal is written in a layout. -/
def ofDecimal (layout : Layout) (negative : Bool) (digits : List Char) (exponent : Int) :
    Numeral :=
  let scientific := exponent + digits.length - 1
  if layout.lowest ≤ scientific ∧ scientific < layout.highest then
    if 0 ≤ exponent then
      ⟨negative, digits ++ List.replicate exponent.toNat '0', ['0'], none⟩
    else if 0 ≤ scientific then
      ⟨negative, digits.take (scientific + 1).toNat, digits.drop (scientific + 1).toNat, none⟩
    else
      ⟨negative, ['0'], List.replicate (-scientific - 1).toNat '0' ++ digits, none⟩
  else
    ⟨negative, digits.take 1, digits.drop 1, some scientific⟩

theorem isDigit_replicate_zero (count : Nat) :
    forall c, c ∈ List.replicate count '0' -> c.isDigit = true := by
  intro c listed
  rw [(List.mem_replicate.mp listed).2]
  rfl

section Decimal

variable (layout : Layout) (negative : Bool) {digits : List Char} (exponent : Int)

theorem spelled_ofDecimal (significant : Significant digits) :
    (ofDecimal layout negative digits exponent).Spelled := by
  have taken : forall count, forall c, c ∈ digits.take count -> c.isDigit = true :=
    fun count c listed => significant.ascii c (List.mem_of_mem_take listed)
  have dropped : forall count, forall c, c ∈ digits.drop count -> c.isDigit = true :=
    fun count c listed => significant.ascii c (List.mem_of_mem_drop listed)
  have present : 0 < digits.length := List.length_pos_iff.mpr significant.notEmpty
  simp only [ofDecimal]
  split
  · split
    · exact {
        whole := List.forall_mem_append.mpr ⟨significant.ascii, isDigit_replicate_zero _⟩
        fraction := List.forall_mem_singleton.mpr rfl
        notEmpty := List.append_ne_nil_of_left_ne_nil significant.notEmpty _
        noLeadingZero leading := by
          rw [List.head?_append_of_ne_nil _ significant.notEmpty] at leading
          exact absurd leading significant.noLeadingZero }
    · split
      · exact {
          whole := taken _
          fraction := dropped _
          notEmpty := by
            intro none
            rcases List.take_eq_nil_iff.mp none with noCount | noDigits
            · omega
            · exact significant.notEmpty noDigits
          noLeadingZero leading := by
            rw [List.head?_take] at leading
            split at leading
            · cases leading
            · exact absurd leading significant.noLeadingZero }
      · exact {
          whole := List.forall_mem_singleton.mpr rfl
          fraction := List.forall_mem_append.mpr ⟨isDigit_replicate_zero _, significant.ascii⟩
          notEmpty := List.cons_ne_nil _ _
          noLeadingZero _ := rfl }
  · exact {
      whole := taken _
      fraction := dropped _
      notEmpty := by
        intro none
        rcases List.take_eq_nil_iff.mp none with noCount | noDigits
        · cases noCount
        · exact significant.notEmpty noDigits
      noLeadingZero _ := by
        rw [List.length_take]
        omega }

theorem body_ofDecimal (significant : Significant digits) :
    (ofDecimal layout negative digits exponent).body = writeDecimal layout digits exponent := by
  have present : 0 < digits.length := List.length_pos_iff.mpr significant.notEmpty
  simp only [ofDecimal, writeDecimal]
  split
  · split
    · simp only [body, pointChars, powerChars, List.append_nil]
    · split
      · have behind : digits.drop (exponent + digits.length - 1 + 1).toNat ≠ [] := by
          intro none
          have := List.drop_eq_nil_iff.mp none
          omega
        simp only [body, powerChars, List.append_nil, pointChars_of_ne_nil behind]
      · have behind : List.replicate (-(exponent + digits.length - 1) - 1).toNat '0' ++ digits ≠
            [] := List.append_ne_nil_of_right_ne_nil _ significant.notEmpty
        simp only [body, powerChars, List.append_nil, pointChars_of_ne_nil behind]
        rfl
  · simp only [body, powerChars, List.append_assoc]
    by_cases single : digits.length ≤ 1
    · rw [if_pos single, List.drop_eq_nil_iff.mpr single]
      rfl
    · have behind : digits.drop 1 ≠ [] := fun none => single (List.drop_eq_nil_iff.mp none)
      rw [if_neg single, pointChars_of_ne_nil behind]

/-- The digits of the numeral and its exponent stand for the same decimal: zeros have been
moved out of the exponent, or none. -/
theorem exists_zeros_of_ofDecimal (significant : Significant digits) :
    Exists fun zeros : Nat =>
      Nat.ofDigitChars 10 ((ofDecimal layout negative digits exponent).whole ++
        (ofDecimal layout negative digits exponent).fraction) 0 =
          Nat.ofDigitChars 10 digits 0 * 10 ^ zeros ∧
      (ofDecimal layout negative digits exponent).exponent.getD 0 -
        (ofDecimal layout negative digits exponent).fraction.length = exponent - zeros := by
  have present : 0 < digits.length := List.length_pos_iff.mpr significant.notEmpty
  simp only [ofDecimal]
  split
  · split
    · refine ⟨exponent.toNat + 1, ?_, ?_⟩
      · have zeros : List.replicate exponent.toNat '0' ++ ['0'] =
            List.replicate (exponent.toNat + 1) '0' := List.replicate_succ'.symm
        simp only [List.append_assoc, zeros]
        rw [Nat.ofDigitChars_append, Nat.ofDigitChars_replicate_zero, Nat.mul_comm]
      · simp only [Option.getD_none, List.length_singleton]
        omega
    · split
      · refine ⟨0, ?_, ?_⟩
        · rw [List.take_append_drop, Nat.pow_zero, Nat.mul_one]
        · simp only [Option.getD_none, List.length_drop]
          omega
      · refine ⟨0, ?_, ?_⟩
        · have zeros : ['0'] ++ (List.replicate (-(exponent + digits.length - 1) - 1).toNat '0' ++
              digits) =
              List.replicate ((-(exponent + digits.length - 1) - 1).toNat + 1) '0' ++ digits := rfl
          simp only [zeros]
          rw [Nat.ofDigitChars_append, Nat.ofDigitChars_replicate_zero, Nat.mul_zero,
            Nat.pow_zero, Nat.mul_one]
        · simp only [Option.getD_none, List.length_append, List.length_replicate]
          omega
  · refine ⟨0, ?_, ?_⟩
    · rw [List.take_append_drop, Nat.pow_zero, Nat.mul_one]
    · simp only [Option.getD_some, List.length_drop]
      omega

theorem toInteger?_ofDecimal (significant : Significant digits) :
    (ofDecimal layout negative digits exponent).toInteger? = none := by
  have present : 0 < digits.length := List.length_pos_iff.mpr significant.notEmpty
  have pointed : (ofDecimal layout negative digits exponent).fraction ≠ [] ∨
      (ofDecimal layout negative digits exponent).exponent.isSome = true := by
    simp only [ofDecimal]
    split
    · apply Or.inl
      split
      · exact List.cons_ne_nil _ _
      · split
        · intro none
          have := List.drop_eq_nil_iff.mp none
          omega
        · exact List.append_ne_nil_of_right_ne_nil _ significant.notEmpty
    · exact Or.inr rfl
  exact if_pos pointed

theorem negative_ofDecimal (digits : List Char) :
    (ofDecimal layout negative digits exponent).negative = negative := by
  simp only [ofDecimal]
  split
  · split
    · rfl
    · split <;> rfl
  · rfl

/-- A decimal that is read as a finite rank is read so in every layout. -/
theorem toNumber?_ofDecimal (significant : Significant digits) {rank : Nat}
    (finite : rank < Binary64.rankLimit)
    (reads : Binary64.rankOfDecimal (Nat.ofDigitChars 10 digits 0) exponent = rank) :
    (ofDecimal layout negative digits exponent).toNumber? =
      some (.float ⟨negative, rank, finite⟩) := by
  rcases exists_zeros_of_ofDecimal layout negative exponent significant with
    ⟨zeros, sameDigits, sameExponent⟩
  -- A finite rank keeps the exponent below the upper bound, and only there do zeros move freely.
  have nearest : Binary64.rankOfDecimal (Nat.ofDigitChars 10 digits 0 * 10 ^ zeros)
      (exponent - zeros) = rank := by
    by_cases zero : Nat.ofDigitChars 10 digits 0 = 0
    · rw [zero, Binary64.rankOfDecimal_zero] at reads
      rw [zero, Nat.zero_mul, Binary64.rankOfDecimal_zero, reads]
    · have reachable : exponent + (0 : Nat) ≤ 1100 := by
        apply Binary64.le_of_rankOfDecimal_lt (Nat.pos_of_ne_zero zero)
        rw [Nat.pow_zero, Nat.mul_one, reads]
        exact finite
      rw [Binary64.rankOfDecimal_mul_pow (by omega), Int.sub_add_cancel, reads]
  rw [toNumber?, toInteger?_ofDecimal layout negative exponent significant]
  simp only [toBinary64?, sameDigits, sameExponent, nearest, negative_ofDecimal,
    Binary64.ofRank?, dif_pos finite, Option.map_some]

end Decimal

/-! ## The numerals of binary64 numbers -/

theorem exists_zeros_of_withoutTrailingZeros (decimal : Decimal) :
    Exists fun zeros : Nat =>
      Nat.toDigits 10 decimal.digits =
        decimal.withoutTrailingZeros.1 ++ List.replicate zeros '0' ∧
      decimal.withoutTrailingZeros.2 = decimal.exponent + zeros := by
  generalize split : (Nat.toDigits 10 decimal.digits).reverse.takeWhile (· == '0') = zeros
  have only : zeros = List.replicate zeros.length '0' := by
    apply List.eq_replicate_of_mem
    intro c listed
    rw [← split] at listed
    exact eq_of_beq (List.mem_takeWhile_imp (p := (· == '0')) listed)
  have whole : Nat.toDigits 10 decimal.digits =
      decimal.withoutTrailingZeros.1 ++ List.replicate zeros.length '0' := by
    rw [← List.reverse_inj, List.reverse_append, List.reverse_replicate, ← only, ← split,
      Decimal.withoutTrailingZeros, List.reverse_reverse, List.takeWhile_append_dropWhile]
  refine ⟨zeros.length, whole, ?_⟩
  have lengths := congrArg List.length whole
  rw [List.length_append, List.length_replicate] at lengths
  rw [Decimal.withoutTrailingZeros] at lengths ⊢
  simp only [lengths]
  omega

theorem significant_withoutTrailingZeros {decimal : Decimal} (notZero : decimal.digits ≠ 0) :
    Significant decimal.withoutTrailingZeros.1 := by
  rcases exists_zeros_of_withoutTrailingZeros decimal with ⟨zeros, digits, _⟩
  have filled : decimal.withoutTrailingZeros.1 ≠ [] := by
    intro empty
    have value := Nat.ofDigitChars_ten_toDigits (n := decimal.digits)
    rw [digits, empty, List.nil_append, Nat.ofDigitChars_replicate_zero, Nat.mul_zero] at value
    exact notZero value.symm
  have leading := head?_toDigits_ne_zero decimal.digits notZero
  have ascii := isDigit_toDigits decimal.digits
  rw [digits] at leading ascii
  rw [List.head?_append_of_ne_nil _ filled] at leading
  exact ⟨(List.forall_mem_append.mp ascii).1, filled, leading⟩

theorem rankOfDecimal_withoutTrailingZeros {decimal : Decimal} {rank : Nat}
    (reads : decimal.ReadsAs rank) (finite : rank < Binary64.rankLimit) :
    Binary64.rankOfDecimal (Nat.ofDigitChars 10 decimal.withoutTrailingZeros.1 0)
      decimal.withoutTrailingZeros.2 = rank := by
  rcases exists_zeros_of_withoutTrailingZeros decimal with ⟨zeros, digits, exponent⟩
  have value : Nat.ofDigitChars 10 decimal.withoutTrailingZeros.1 0 * 10 ^ zeros =
      decimal.digits := by
    rw [Nat.mul_comm, ← Nat.ofDigitChars_replicate_zero, ← Nat.ofDigitChars_append, ← digits,
      Nat.ofDigitChars_ten_toDigits]
  rw [Decimal.ReadsAs, ← value] at reads
  rw [exponent, ← reads]
  by_cases zero : Nat.ofDigitChars 10 decimal.withoutTrailingZeros.1 0 = 0
  · rw [zero, Nat.zero_mul, Binary64.rankOfDecimal_zero, Binary64.rankOfDecimal_zero]
  · rw [← reads] at finite
    have reachable := Binary64.le_of_rankOfDecimal_lt (Nat.pos_of_ne_zero zero) finite
    exact (Binary64.rankOfDecimal_mul_pow reachable).symm

/-- The numeral by which a binary64 number is written. -/
def ofBinary64 (value : Binary64) : Numeral :=
  if value.rank = 0 then
    ⟨value.negative, ['0'], ['0'], none⟩
  else
    let (digits, exponent) := (Decimal.shortest value.rank).withoutTrailingZeros
    ofDecimal layout value.negative digits exponent

theorem digits_shortest_ne_zero {rank : Nat} (notZero : rank ≠ 0) :
    (Decimal.shortest rank).digits ≠ 0 := by
  intro none
  have reads := Decimal.readsAs_shortest rank
  rw [Decimal.ReadsAs, none, Binary64.rankOfDecimal_zero] at reads
  exact notZero reads.symm

theorem chars_ofBinary64 (value : Binary64) : (ofBinary64 value).chars = value.write := by
  rw [chars, ofBinary64, Binary64.write]
  by_cases zero : value.rank = 0
  · simp only [if_pos zero]
    rfl
  · have significant := significant_withoutTrailingZeros (digits_shortest_ne_zero zero)
    simp only [if_neg zero, negative_ofDecimal, body_ofDecimal _ _ _ significant]

theorem spelled_ofBinary64 (value : Binary64) : (ofBinary64 value).Spelled := by
  rw [ofBinary64]
  split
  · exact {
      whole := List.forall_mem_singleton.mpr rfl
      fraction := List.forall_mem_singleton.mpr rfl
      notEmpty := List.cons_ne_nil _ _
      noLeadingZero _ := rfl }
  · next notZero =>
      exact spelled_ofDecimal _ _ _
        (significant_withoutTrailingZeros (digits_shortest_ne_zero notZero))

theorem toNumber?_ofBinary64 (value : Binary64) :
    (ofBinary64 value).toNumber? = some (.float value) := by
  rcases value with ⟨negative, rank, finite⟩
  rw [ofBinary64]
  split
  · next zero =>
      have zero : rank = 0 := zero
      subst zero
      have pointed : (['0'] : List Char) ≠ [] ∨ (none : Option Int).isSome = true :=
        Or.inl (List.cons_ne_nil _ _)
      have nothing : Nat.ofDigitChars 10 (['0'] ++ ['0']) 0 = 0 := rfl
      rw [toNumber?, toInteger?, if_pos pointed]
      simp only [toBinary64?, nothing, Binary64.rankOfDecimal_zero, Binary64.ofRank?,
        dif_pos finite, Option.map_some]
  · next notZero =>
      exact toNumber?_ofDecimal _ _ _
        (significant_withoutTrailingZeros (digits_shortest_ne_zero notZero)) finite
        (rankOfDecimal_withoutTrailingZeros (Decimal.readsAs_shortest rank) finite)

/-! ## Numbers -/

/-- The numeral by which a number is written. -/
def ofNumber : Number -> Numeral
  | .integer value => ofInteger value
  | .float value => ofBinary64 value

theorem chars_ofNumber (value : Number) : (ofNumber value).chars = value.write := by
  cases value with
  | integer value => exact chars_ofInteger value
  | float value => exact chars_ofBinary64 value

theorem spelled_ofNumber (value : Number) : (ofNumber value).Spelled := by
  cases value with
  | integer value => exact spelled_ofInteger value
  | float value => exact spelled_ofBinary64 value

/-- The numeral by which a number is written denotes the number. -/
theorem toNumber?_ofNumber (value : Number) : (ofNumber value).toNumber? = some value := by
  cases value with
  | integer value => exact toNumber?_ofInteger value
  | float value => exact toNumber?_ofBinary64 value

/-- What is written for a number is read as its numeral, if the number cannot go on behind it. -/
theorem read?_write (value : Number) {rest : List Char} (ends : StopsAt goesOn rest) :
    read? (value.write ++ rest) = some (ofNumber value, rest) := by
  rw [← chars_ofNumber]
  exact read?_chars (spelled_ofNumber value) ends

end Numeral
end Emend
