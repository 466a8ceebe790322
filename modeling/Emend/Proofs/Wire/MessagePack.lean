import Emend.Proofs.Datum.Shows
import Emend.Proofs.Json.Nesting
import Emend.Proofs.Wire.Bytes
import Emend.Wire.MessagePack

namespace Emend

/-!
# Bytes are read back

The bytes of a value are read as a datum that shows the value, and whatever
stands behind them is left over.  Two limits are asked of the value: its arrays
and objects may not be nested deeper than the reader goes, and no length in it
may be too large for four bytes, which follows from a limit on all the bytes.
-/

namespace MessagePack

open Wire

/-! ## Lengths -/

/-- Behind the first byte of a value of the given kind, the bytes tell its
length. -/
def Announces (kind : Length -> Marker) (length : Nat) (start : List UInt8) : Prop :=
  Exists fun first => Exists fun bytes => Exists fun place =>
    start = first :: bytes ∧ Marker.ofByte first = kind place ∧
      forall rest, readLength? place (bytes ++ rest) = some (length, rest)

theorem announces_writeLength {kind : Length -> Marker} {first short length : Nat}
    {wider : List (UInt8 × Nat)}
    (inFirst : forall number, number < short ->
      Marker.ofByte (UInt8.ofNat (first + number)) = kind (.known number))
    (behindFirst : forall form, form ∈ wider -> Marker.ofByte form.1 = kind (.inBytes form.2))
    (enough : Exists fun form => form ∈ wider ∧ length < Nat.pow 256 form.2) :
    Announces kind length (writeLength first short wider length) := by
  rw [writeLength]
  split
  · next isShort => exact ⟨_, [], _, rfl, inFirst length isShort, fun rest => rfl⟩
  · split
    · next byte width found =>
        have wide : length < Nat.pow 256 width := by
          have holds := List.find?_some found
          exact of_decide_eq_true holds
        refine ⟨byte, _, _, rfl, behindFirst _ (List.mem_of_find?_eq_some found), fun rest => ?_⟩
        exact takeNat?_bigEndian wide rest
    · next none =>
        rcases enough with ⟨form, listed, wide⟩
        exact absurd (decide_eq_true wide) (List.find?_eq_none.mp none form listed)

/-- Lengths that fit four bytes. -/
abbrev lengthLimit : Nat := 4294967296

theorem announces_textStart {length : Nat} (fits : length < lengthLimit) :
    Announces .text length (textStart length) :=
  announces_writeLength (by decide) (by decide) ⟨(0xdb, 4), by decide, fits⟩

theorem announces_arrayStart {length : Nat} (fits : length < lengthLimit) :
    Announces .array length (arrayStart length) :=
  announces_writeLength (by decide) (by decide) ⟨(0xdd, 4), by decide, fits⟩

theorem announces_mapStart {length : Nat} (fits : length < lengthLimit) :
    Announces .map length (mapStart length) :=
  announces_writeLength (by decide) (by decide) ⟨(0xdf, 4), by decide, fits⟩

/-! ## Numbers -/

theorem integer?_value (value : Integer64) (naming : Naming) :
    integer? value.value naming = some (.integer value naming) := by
  rw [integer?, Integer64.ofInt?, dif_pos value.inRange]
  rfl

theorem read?_small {depth : Nat} {first : UInt8} {value : Integer64}
    (marker : Marker.ofByte first = .small value.value) (rest : List UInt8) :
    read? depth ([first] ++ rest) = some (.integer value (naming 1), rest) := by
  rw [List.singleton_append, read?, marker]
  simp only [integer?_value, Option.map_some]

theorem read?_unsigned {depth : Nat} {first : UInt8} {width limit : Nat} {value : Integer64}
    (marker : Marker.ofByte first = .unsigned width) (power : Nat.pow 256 width = limit)
    (nonnegative : 0 ≤ value.value) (fits : value.value < limit) (rest : List UInt8) :
    read? depth (first :: bigEndian width value.value.toNat ++ rest) =
      some (.integer value (naming width), rest) := by
  have wide : value.value.toNat < Nat.pow 256 width := by omega
  have same : ((value.value.toNat : Nat) : Int) = value.value := Int.toNat_of_nonneg nonnegative
  rw [List.cons_append, read?, marker]
  dsimp only
  rw [takeNat?_bigEndian wide, Option.bind_eq_bind, Option.bind_some]
  dsimp only
  rw [same, integer?_value]
  rfl

theorem read?_signed {depth : Nat} {first : UInt8} {width limit : Nat} {value : Integer64}
    (marker : Marker.ofByte first = .signed width) (power : Nat.pow 256 width = limit)
    (least : -limit ≤ 2 * value.value) (most : 2 * value.value < limit) (rest : List UInt8) :
    read? depth (first :: signedBigEndian width value.value ++ rest) =
      some (.integer value .nowhere, rest) := by
  subst power
  rw [List.cons_append, read?, marker]
  dsimp only
  rw [takeSigned?_signedBigEndian, Option.bind_eq_bind, Option.bind_some]
  dsimp only
  rw [ofSignedBigEndian_signedBigEndian least most, integer?_value]
  rfl

theorem marker_ofNat {value : Int} (nonnegative : 0 ≤ value) (below : value < 0x80) :
    Marker.ofByte (UInt8.ofNat value.toNat) = .small value := by
  have code : (UInt8.ofNat value.toNat).toNat = value.toNat := UInt8.toNat_ofNat_of_lt' (by
    have size : UInt8.size = 256 := rfl
    omega)
  have small : value.toNat < 0x80 := by omega
  simp only [Marker.ofByte, code, if_pos small]
  rw [Int.toNat_of_nonneg nonnegative]

/-- Behind the first 224 bytes come the negative numbers down to -32. -/
theorem marker_signed {value : Int} (least : -0x20 ≤ value) (negative : value < 0) :
    Exists fun first =>
      signedBigEndian 1 value = [first] ∧ Marker.ofByte first = .small value := by
  have remainder : (value % 256).toNat = (value + 256).toNat := by
    rw [emod_eq (by omega) (by omega), if_neg (by omega)]
  have code : (UInt8.ofNat (value + 256).toNat).toNat = (value + 256).toNat :=
    UInt8.toNat_ofNat_of_lt' (by
      have size : UInt8.size = 256 := rfl
      omega)
  refine ⟨UInt8.ofNat (value + 256).toNat, ?_, ?_⟩
  · have single : signedBigEndian 1 value = [UInt8.ofNat ((value % 256).toNat / 1)] := rfl
    rw [single, Nat.div_one, remainder]
  · simp only [Marker.ofByte, code]
    rw [if_neg (by omega), if_neg (by omega), if_neg (by omega), if_neg (by omega),
      if_pos (by omega), Int.toNat_of_nonneg (by omega)]
    exact congrArg Marker.small (by omega)

theorem read?_writeInteger (depth : Nat) (value : Integer64) (rest : List UInt8) :
    Exists fun naming =>
      read? depth (writeInteger value.value ++ rest) = some (.integer value naming, rest) := by
  have inRange := value.inRange
  have one : Nat.pow 256 1 = 0x100 := rfl
  have two : Nat.pow 256 2 = 0x10000 := rfl
  have four : Nat.pow 256 4 = 0x100000000 := rfl
  have eight : Nat.pow 256 8 = 0x10000000000000000 := rfl
  rw [writeInteger]
  split
  · next nonnegative =>
      split
      · next below => exact ⟨_, read?_small (marker_ofNat nonnegative below) rest⟩
      split
      · next below => exact ⟨_, read?_unsigned rfl one nonnegative below rest⟩
      split
      · next below => exact ⟨_, read?_unsigned rfl two nonnegative below rest⟩
      split
      · next below => exact ⟨_, read?_unsigned rfl four nonnegative below rest⟩
      · exact ⟨_, read?_unsigned rfl eight nonnegative inRange.2 rest⟩
  · next negative =>
      split
      · next least =>
          rcases marker_signed least (by omega) with ⟨first, single, marker⟩
          rw [single]
          exact ⟨_, read?_small marker rest⟩
      split
      · next least => exact ⟨_, read?_signed rfl one (by omega) (by omega) rest⟩
      split
      · next least => exact ⟨_, read?_signed rfl two (by omega) (by omega) rest⟩
      split
      · next least => exact ⟨_, read?_signed rfl four (by omega) (by omega) rest⟩
      · exact ⟨_, read?_signed rfl eight (by omega) (by omega) rest⟩

/-- The bit above all ranks is free for the sign. -/
theorem rank_lt (value : Binary64) : value.rank < Nat.pow 2 63 :=
  Nat.lt_trans value.finite (by decide)

theorem ofBits?_bits (value : Binary64) : Binary64.ofBits? value.bits = some value := by
  have free := rank_lt value
  rcases value with ⟨negative, rank, finite⟩
  have made : Binary64.ofRank? negative rank = some ⟨negative, rank, finite⟩ := dif_pos finite
  cases negative with
  | false =>
      have positive : ¬Nat.pow 2 63 ≤ rank := Nat.not_le.mpr free
      have same : rank % Nat.pow 2 63 = rank := Nat.mod_eq_of_lt free
      simp only [Binary64.bits, Bool.false_eq_true, if_false, Binary64.ofBits?, positive,
        decide_false, same, made]
  | true =>
      have least : Nat.pow 2 63 ≤ Nat.pow 2 63 + rank := Nat.le_add_right _ _
      have same : (Nat.pow 2 63 + rank) % Nat.pow 2 63 = rank := by
        rw [Nat.add_mod_left]
        exact Nat.mod_eq_of_lt free
      simp only [Binary64.bits, if_true, Binary64.ofBits?, least, decide_true, same, made]

theorem bits_lt (value : Binary64) : value.bits < Nat.pow 256 8 := by
  have free := rank_lt value
  have sign : Nat.pow 2 63 + Nat.pow 2 63 = Nat.pow 256 8 := rfl
  rw [Binary64.bits]
  split <;> omega

theorem read?_writeFloat (depth : Nat) (value : Binary64) (rest : List UInt8) :
    read? depth (writeNumber (.float value) ++ rest) = some (.float value, rest) := by
  have marker : Marker.ofByte 0xcb = .double := rfl
  rw [writeNumber, List.cons_append, read?, marker]
  dsimp only
  rw [takeNat?_bigEndian (bits_lt value), Option.bind_eq_bind, Option.bind_some]
  dsimp only
  rw [ofBits?_bits]
  rfl

/-! ## Texts, arrays and maps -/

theorem read?_text {length depth : Nat} {start front : List UInt8}
    (announced : Announces .text length start) (same : front.length = length)
    (rest : List UInt8) :
    read? depth (start ++ front ++ rest) = some (textDatum front, rest) := by
  rcases announced with ⟨first, bytes, place, rfl, marker, read⟩
  rw [List.append_assoc, List.cons_append, read?, marker]
  dsimp only
  rw [read (front ++ rest), Option.bind_eq_bind, Option.bind_some]
  dsimp only
  rw [← same, takeBytes?_append]
  rfl

theorem read?_writeText (text : String) (fits : (writeText text).length < lengthLimit)
    (depth : Nat) (rest : List UInt8) :
    read? depth (writeText text ++ rest) = some (.text text, rest) := by
  have short : (Text.utf8 text).length < lengthLimit := by
    rw [writeText, List.length_append] at fits
    omega
  rw [writeText, read?_text (announces_textStart short) rfl rest, textDatum, Text.ofUtf8?_utf8]

theorem read?_array {length depth : Nat} {start body rest : List UInt8} {items : List Datum}
    (announced : Announces .array length start)
    (inside : takeMany? (read? depth) length (body ++ rest) = some (items, rest)) :
    read? (depth + 1) (start ++ body ++ rest) = some (.list items, rest) := by
  rcases announced with ⟨first, bytes, place, rfl, marker, read⟩
  rw [List.append_assoc, List.cons_append, read?, marker]
  dsimp only
  rw [read (body ++ rest), Option.bind_eq_bind, Option.bind_some]
  dsimp only
  rw [inside]
  rfl

theorem read?_map {length depth : Nat} {start body rest : List UInt8}
    {entries : List (Datum × Datum)} (announced : Announces .map length start)
    (inside : takeMany? (readMember? (read? depth)) length (body ++ rest) = some (entries, rest)) :
    read? (depth + 1) (start ++ body ++ rest) = some (.map entries, rest) := by
  rcases announced with ⟨first, bytes, place, rfl, marker, read⟩
  rw [List.append_assoc, List.cons_append, read?, marker]
  dsimp only
  rw [read (body ++ rest), Option.bind_eq_bind, Option.bind_some]
  dsimp only
  rw [inside]
  rfl

/-! ## Sizes -/

/-- A length that is not told takes at least so many bytes behind it. -/
theorem length_start_append {first short length : Nat} {wider : List (UInt8 × Nat)}
    (positive : 0 < short) {body : List UInt8} (enough : length ≤ body.length) :
    0 < (writeLength first short wider length ++ body).length := by
  rw [List.length_append, writeLength]
  split
  · exact Nat.lt_of_lt_of_le Nat.one_pos (Nat.le_add_right _ _)
  · omega

theorem length_writeInteger (value : Int) : 0 < (writeInteger value).length := by
  rw [writeInteger]
  repeat' split
  all_goals exact Nat.succ_pos _

mutual
theorem length_write : forall value : Json, 0 < (write value).length
  | .null | .bool false | .bool true | .number (.float _) => Nat.succ_pos _
  | .number (.integer value) => length_writeInteger value.value
  | .string text => length_start_append (by decide) (Nat.le_refl _)
  | .array items => length_start_append (by decide) (length_writeItems items)
  | .object members => length_start_append (by decide) (length_writeMembers members)

theorem length_writeItems : forall items : List Json, items.length ≤ (writeItems items).length
  | [] => Nat.zero_le _
  | item :: rest => by
      have first := length_write item
      have others := length_writeItems rest
      rw [writeItems, List.length_append, List.length_cons]
      omega

theorem length_writeMembers : forall members : List (String × Json),
    members.length ≤ (writeMembers members).length
  | [] => Nat.zero_le _
  | (name, value) :: rest => by
      have first := length_write value
      have others := length_writeMembers rest
      rw [writeMembers, List.length_append, List.length_append, List.length_cons]
      omega
end

/-! ## Values -/

mutual
theorem read?_write : forall (value : Json) (depth : Nat) (rest : List UInt8),
    value.nesting ≤ depth -> (write value).length < lengthLimit ->
    Exists fun datum =>
      read? depth (write value ++ rest) = some (datum, rest) ∧ Datum.Shows datum value
  | .null, depth, rest, _, _ => ⟨.null, by rw [write, List.singleton_append, read?]; rfl, .null⟩
  | .bool false, depth, rest, _, _ =>
      ⟨.bool false, by rw [write, List.singleton_append, read?]; rfl, .bool false⟩
  | .bool true, depth, rest, _, _ =>
      ⟨.bool true, by rw [write, List.singleton_append, read?]; rfl, .bool true⟩
  | .number (.integer value), depth, rest, _, _ => by
      rcases read?_writeInteger depth value rest with ⟨naming, read⟩
      exact ⟨.integer value naming, read, .integer value naming⟩
  | .number (.float value), depth, rest, _, _ =>
      ⟨.float value, read?_writeFloat depth value rest, .float value⟩
  | .string text, depth, rest, _, fits =>
      ⟨.text text, read?_writeText text fits depth rest, .text text⟩
  | .array items, depth, rest, nested, fits => by
      rw [Json.nesting] at nested
      rw [write, List.length_append] at fits
      have many := length_writeItems items
      rcases depth with _ | depth
      · omega
      rcases readMany_writeItems items depth rest (by omega) (by omega) with ⟨data, read, shown⟩
      exact ⟨.list data, read?_array (announces_arrayStart (by omega)) read, .list shown⟩
  | .object members, depth, rest, nested, fits => by
      rw [Json.nesting] at nested
      rw [write, List.length_append] at fits
      have many := length_writeMembers members
      rcases depth with _ | depth
      · omega
      rcases readMany_writeMembers members depth rest (by omega) (by omega)
        with ⟨entries, read, shown⟩
      exact ⟨.map entries, read?_map (announces_mapStart (by omega)) read, .map shown (.refl _)⟩

theorem readMany_writeItems : forall (items : List Json) (depth : Nat) (rest : List UInt8),
    Json.nestingItems items ≤ depth -> (writeItems items).length < lengthLimit ->
    Exists fun data =>
      takeMany? (read? depth) items.length (writeItems items ++ rest) = some (data, rest) ∧
        Datum.ShowsItems data items
  | [], depth, rest, _, _ => ⟨[], rfl, .nil⟩
  | item :: others, depth, rest, nested, fits => by
      rw [Json.nestingItems] at nested
      rw [writeItems, List.length_append] at fits
      rcases read?_write item depth (writeItems others ++ rest) (by omega) (by omega)
        with ⟨datum, read, shows⟩
      rcases readMany_writeItems others depth rest (by omega) (by omega)
        with ⟨data, readOthers, showsOthers⟩
      refine ⟨datum :: data, ?_, .cons shows showsOthers⟩
      rw [writeItems, List.append_assoc, List.length_cons, takeMany?, read]
      simp only [Option.bind_eq_bind, Option.bind_some, readOthers]

theorem readMany_writeMembers : forall (members : List (String × Json)) (depth : Nat)
    (rest : List UInt8),
    Json.nestingMembers members ≤ depth -> (writeMembers members).length < lengthLimit ->
    Exists fun entries =>
      takeMany? (readMember? (read? depth)) members.length (writeMembers members ++ rest) =
        some (entries, rest) ∧ Datum.ShowsMembers entries members
  | [], depth, rest, _, _ => ⟨[], rfl, .nil⟩
  | (name, value) :: others, depth, rest, nested, fits => by
      rw [Json.nestingMembers] at nested
      rw [writeMembers, List.length_append, List.length_append] at fits
      have readName := read?_writeText name (by omega) depth
        (write value ++ (writeMembers others ++ rest))
      rcases read?_write value depth (writeMembers others ++ rest) (by omega) (by omega)
        with ⟨datum, read, shows⟩
      rcases readMany_writeMembers others depth rest (by omega) (by omega)
        with ⟨entries, readOthers, showsOthers⟩
      refine ⟨(.text name, datum) :: entries, ?_, .cons name shows showsOthers⟩
      rw [writeMembers, List.append_assoc, List.append_assoc, List.length_cons, takeMany?,
        readMember?, readName]
      simp only [Option.bind_eq_bind, Option.bind_some, read, readOthers]
end

/-- A message begins with the bytes of a value; the datum that is read from it
shows the value. -/
theorem ofBytes?_write {value : Json} (nested : value.nesting ≤ nestingLimit)
    (fits : (write value).length < lengthLimit) (trailing : List UInt8) :
    Exists fun datum =>
      ofBytes? (write value ++ trailing) = some datum ∧ Datum.Shows datum value := by
  rcases read?_write value nestingLimit trailing nested fits with ⟨datum, read, shows⟩
  refine ⟨datum, ?_, shows⟩
  rw [ofBytes?, read]
  rfl

end MessagePack
end Emend
