import Emend.Wire.Frame

namespace Emend
namespace Wire

/-!
# Laws of bytes

What is written is read back, whatever stands behind it: a number from its
bytes if the width is enough for it, a run of bytes from its length, and a row
of values if each of them is read back.
-/

/-! ## Numbers -/

@[simp]
theorem length_bigEndian (width value : Nat) : (bigEndian width value).length = width := by
  induction width with
  | zero => rfl
  | succ width ih => rw [bigEndian, List.length_cons, ih]

/-- Bytes behind a number that has been read already. -/
theorem foldl_bigEndian (width value : Nat) :
    forall before : Nat,
      (bigEndian width value).foldl (fun value byte => value * 256 + byte.toNat) before =
        before * Nat.pow 256 width + value % Nat.pow 256 width := by
  induction width with
  | zero =>
      intro before
      have single : value % Nat.pow 256 0 = 0 := Nat.mod_one value
      rw [single]
      exact (Nat.mul_one before).symm
  | succ width ih =>
      intro before
      have digits : value % Nat.pow 256 (width + 1) =
          value % Nat.pow 256 width + Nat.pow 256 width * (value / Nat.pow 256 width % 256) :=
        Nat.mod_mul
      have power : Nat.pow 256 (width + 1) = Nat.pow 256 width * 256 := rfl
      have byte : (UInt8.ofNat (value / Nat.pow 256 width)).toNat =
          value / Nat.pow 256 width % 256 := UInt8.toNat_ofNat'
      rw [bigEndian, List.foldl_cons, ih, byte, digits, power, Nat.add_mul,
        Nat.mul_comm (Nat.pow 256 width) 256, ← Nat.mul_assoc,
        Nat.mul_comm (value / Nat.pow 256 width % 256)]
      omega

theorem ofBigEndian_bigEndian {width value : Nat} (fits : value < Nat.pow 256 width) :
    ofBigEndian (bigEndian width value) = value := by
  rw [ofBigEndian, foldl_bigEndian, Nat.zero_mul, Nat.zero_add, Nat.mod_eq_of_lt fits]

/-- The remainder that stands for a number in two's complement. -/
theorem emod_eq {limit value : Int} (least : -limit ≤ 2 * value) (most : 2 * value < limit) :
    value % limit = if 0 ≤ value then value else value + limit := by
  split
  · exact Int.emod_eq_of_lt (by omega) (by omega)
  · rw [← Int.add_emod_right]
    exact Int.emod_eq_of_lt (by omega) (by omega)

theorem ofSignedBigEndian_signedBigEndian {width : Nat} {value : Int}
    (least : -(Nat.pow 256 width : Nat) ≤ 2 * value) (most : 2 * value < (Nat.pow 256 width : Nat)) :
    ofSignedBigEndian (signedBigEndian width value) = value := by
  have remainder := emod_eq least most
  have fits : (value % (Nat.pow 256 width : Nat)).toNat < Nat.pow 256 width := by
    rw [remainder]
    split <;> omega
  simp only [ofSignedBigEndian, signedBigEndian, length_bigEndian, ofBigEndian_bigEndian fits]
  rw [remainder]
  split <;> split <;> omega

/-! ## Readings -/

theorem takeBytes?_append (front rest : List UInt8) :
    takeBytes? front.length (front ++ rest) = some (front, rest) := by
  rw [takeBytes?, List.take_left, List.drop_left]
  exact if_pos rfl

theorem takeNat?_bigEndian {width value : Nat} (fits : value < Nat.pow 256 width)
    (rest : List UInt8) : takeNat? width (bigEndian width value ++ rest) = some (value, rest) := by
  have taken := takeBytes?_append (bigEndian width value) rest
  rw [length_bigEndian] at taken
  rw [takeNat?, taken]
  exact congrArg (fun number => some (number, rest)) (ofBigEndian_bigEndian fits)

theorem takeSigned?_signedBigEndian (width : Nat) (value : Int) (rest : List UInt8) :
    takeBytes? width (signedBigEndian width value ++ rest) =
      some (signedBigEndian width value, rest) := by
  have taken := takeBytes?_append (signedBigEndian width value) rest
  rw [signedBigEndian, length_bigEndian] at taken
  exact taken

end Wire
end Emend
