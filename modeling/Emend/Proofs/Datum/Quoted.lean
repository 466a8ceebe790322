import Emend.Datum.Text
import Emend.Json.Print

namespace Emend
namespace Datum

/-!
# Strings are read back

Each character between quotation marks is written as one piece: as it is, behind a backslash,
or by its number.  The reader takes the pieces apart again, and the numbers, which all belong
to control characters, never look like halves of a surrogate pair.
-/

/-! ## Pieces -/

/-- A piece stands for a character: it shows it, or gives the number of a control character. -/
def Piece.StandsFor (piece : Piece) (c : Char) : Prop :=
  piece = .char c ∨ piece = .unit c.toNat ∧ c.toNat < 0x20

theorem hexValue?_hexDigit :
    forall value, value < 16 -> hexValue? (Json.hexDigit value) = some value := by
  decide

theorem hexUnit?_control {value : Nat} (control : value < 0x20) (rest : List Char) :
    hexUnit? ('0' :: '0' :: Json.hexDigit (value / 16) :: Json.hexDigit (value % 16) :: rest) =
      some (value, rest) := by
  have zero : hexValue? '0' = some 0 := rfl
  have high := hexValue?_hexDigit (value / 16) (by omega)
  have low := hexValue?_hexDigit (value % 16) (by omega)
  have whole : ((0 * 16 + 0) * 16 + value / 16) * 16 + value % 16 = value := by omega
  simp only [hexUnit?, zero, high, low, whole, Option.bind_eq_bind, Option.bind_some]

/-- A letter behind a backslash. -/
theorem readPieces?_letter {letter c : Char} (stands : escaped? letter = some c)
    (noNumber : letter ≠ 'u') {bound : Nat} {text rest : List Char} {pieces : List Piece}
    (read : readPieces? bound text = some (pieces, rest)) :
    readPieces? (bound + 1) ('\\' :: letter :: text) = some (.char c :: pieces, rest) := by
  have noQuote : '\\' ≠ '"' := by decide
  simp only [readPieces?, if_neg noQuote, if_neg noNumber, stands, read, if_true,
    Option.bind_eq_bind, Option.bind_some]

theorem readPieces?_number {value : Nat} (control : value < 0x20) {bound : Nat}
    {text rest : List Char} {pieces : List Piece}
    (read : readPieces? bound text = some (pieces, rest)) :
    readPieces? (bound + 1) ('\\' :: 'u' :: '0' :: '0' :: Json.hexDigit (value / 16) ::
      Json.hexDigit (value % 16) :: text) = some (.unit value :: pieces, rest) := by
  have noQuote : '\\' ≠ '"' := by decide
  simp only [readPieces?, if_neg noQuote, hexUnit?_control control, read, if_true,
    Option.bind_eq_bind, Option.bind_some]

/-- A character that stands for itself. -/
theorem readPieces?_plain {c : Char} (noQuote : c ≠ '"') (noBackslash : c ≠ '\\')
    (noControl : ¬ c.toNat < 0x20) {bound : Nat} {text rest : List Char} {pieces : List Piece}
    (read : readPieces? bound text = some (pieces, rest)) :
    readPieces? (bound + 1) (c :: text) = some (.char c :: pieces, rest) := by
  simp only [readPieces?, if_neg noQuote, if_neg noBackslash, if_neg noControl, read,
    Option.bind_eq_bind, Option.bind_some]

/-- A character inside quotes is read as one piece. -/
theorem readPieces?_escape (c : Char) {bound : Nat} {text rest : List Char}
    {pieces : List Piece} (read : readPieces? bound text = some (pieces, rest)) :
    Exists fun piece : Piece => piece.StandsFor c ∧
      readPieces? (bound + 1) (Json.escape c ++ text) = some (piece :: pieces, rest) := by
  have letter : forall letter, escaped? letter = some c -> letter ≠ 'u' ->
      Exists fun piece : Piece => piece.StandsFor c ∧
        readPieces? (bound + 1) (['\\', letter] ++ text) = some (piece :: pieces, rest) :=
    fun letter stands noNumber =>
      ⟨.char c, Or.inl rfl, readPieces?_letter stands noNumber read⟩
  rw [Json.escape]
  split
  · next same => exact letter '"' (by rw [same]; rfl) (by decide)
  · next noQuote =>
    split
    · next same => exact letter '\\' (by rw [same]; rfl) (by decide)
    · next noBackslash =>
      split
      · next same => exact letter 'b' (by rw [same]; rfl) (by decide)
      · split
        · next same => exact letter 'f' (by rw [same]; rfl) (by decide)
        · split
          · next same => exact letter 'n' (by rw [same]; rfl) (by decide)
          · split
            · next same => exact letter 'r' (by rw [same]; rfl) (by decide)
            · split
              · next same => exact letter 't' (by rw [same]; rfl) (by decide)
              · split
                · next control =>
                  exact ⟨.unit c.toNat, Or.inr ⟨rfl, control⟩, readPieces?_number control read⟩
                · next noControl =>
                  exact ⟨.char c, Or.inl rfl,
                    readPieces?_plain noQuote noBackslash noControl read⟩

/-! ## Whole strings -/

theorem assemble?_cons {piece : Piece} {c : Char} (stands : piece.StandsFor c)
    {pieces : List Piece} {text : List Char} (assembled : assemble? pieces = some text) :
    assemble? (piece :: pieces) = some (c :: text) := by
  rcases stands with same | ⟨same, control⟩
  · rw [same, assemble?, assembled]
    rfl
  -- Two numbers in a row are tried as a surrogate pair first.
  · have noHigh : ¬ (0xD800 ≤ c.toNat ∧ c.toNat < 0xDC00) := by omega
    have noLow : ¬ (0xDC00 ≤ c.toNat ∧ c.toNat < 0xE000) := by omega
    have noHalf : ¬ (0xD800 ≤ c.toNat ∧ c.toNat < 0xE000) := by omega
    rw [same]
    cases pieces with
    | nil =>
        rw [assemble?, if_neg noHalf, assembled, Char.ofNat_toNat]
        · rfl
        · rintro low others ⟨⟩
    | cons next others =>
        cases next with
        | unit low =>
            rw [assemble?, if_neg noHigh, if_neg noLow, assembled, Char.ofNat_toNat]
            rfl
        | char other =>
            rw [assemble?, if_neg noHalf, assembled, Char.ofNat_toNat]
            · rfl
            · rintro low others ⟨⟩

theorem readPieces?_quoted (rest : List Char) (text : List Char) :
    forall bound, text.length < bound ->
      Exists fun pieces =>
        readPieces? bound (text.flatMap Json.escape ++ '"' :: rest) = some (pieces, rest) ∧
        assemble? pieces = some text := by
  induction text with
  | nil =>
      intro bound enough
      cases bound with
      | zero => cases enough
      | succ bound => exact ⟨[], rfl, rfl⟩
  | cons c text ih =>
      intro bound enough
      cases bound with
      | zero => cases enough
      | succ bound =>
          rcases ih bound (Nat.lt_of_succ_lt_succ enough) with ⟨pieces, read, assembled⟩
          rcases readPieces?_escape c read with ⟨piece, stands, readAll⟩
          rw [List.flatMap_cons, List.append_assoc]
          exact ⟨piece :: pieces, readAll, assemble?_cons stands assembled⟩

theorem escape_ne_nil (c : Char) : Json.escape c ≠ [] := by
  rw [Json.escape]
  repeat' split
  all_goals exact List.cons_ne_nil _ _

theorem length_le_length_escaped (text : List Char) :
    text.length ≤ (text.flatMap Json.escape).length := by
  induction text with
  | nil => exact Nat.le_refl 0
  | cons c text ih =>
      have present := List.length_pos_iff.mpr (escape_ne_nil c)
      rw [List.flatMap_cons, List.length_append, List.length_cons]
      omega

/-- A quoted string is read as that string. -/
theorem readString?_quote (text : String) (rest : List Char) :
    readString? (text.toList.flatMap Json.escape ++ '"' :: rest) = some (.text text, rest) := by
  have bound := length_le_length_escaped text.toList
  rcases readPieces?_quoted rest text.toList
    ((text.toList.flatMap Json.escape ++ '"' :: rest).length + 1)
    (by rw [List.length_append]; omega) with ⟨pieces, read, assembled⟩
  simp only [readString?, read, assembled, Option.bind_eq_bind, Option.bind_some,
    String.ofList_toList]

end Datum
end Emend
