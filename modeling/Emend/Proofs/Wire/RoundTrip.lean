import Mathlib
import Emend.Proofs.Wire.Message
import Emend.Proofs.Wire.MessagePack

namespace Emend

/-!
# Frames and messages are read back

A frame that was written is read as its message, and the message as what was
written in it.  A frame is refused only for its size, so whatever is not refused
is small enough for every length in it.
-/

namespace Wire

/-! ## Frames -/

theorem frame_eq_ok_iff {message bytes : List UInt8} :
    frame message = .ok bytes ↔
      message.length ≤ maxMessageSize ∧ bytes = bigEndian 4 message.length ++ message := by
  rw [frame]
  split
  · next tooLarge =>
      constructor
      · intro framed
        cases framed
      · rintro ⟨small, _⟩
        exact absurd small (Nat.not_le.mpr tooLarge)
  · next small =>
      constructor
      · intro framed
        exact ⟨Nat.not_lt.mp small, (Except.ok.inj framed).symm⟩
      · rintro ⟨_, rfl⟩
        rfl

theorem exists_frame {message : List UInt8} (small : message.length ≤ maxMessageSize) :
    Exists fun bytes => frame message = .ok bytes :=
  ⟨_, frame_eq_ok_iff.mpr ⟨small, rfl⟩⟩

theorem readFrame_of_frame {message bytes : List UInt8} (framed : frame message = .ok bytes)
    (rest : List UInt8) : readFrame (bytes ++ rest) = (.ok message, rest) := by
  rcases frame_eq_ok_iff.mp framed with ⟨small, rfl⟩
  have fits : message.length < Nat.pow 256 4 := Nat.lt_of_le_of_lt small (by decide)
  rw [List.append_assoc, readFrame, takeNat?_bigEndian fits]
  simp only [if_neg (Nat.not_lt.mpr small), takeBytes?_append]

/-! ## Messages -/

theorem decode_write {Value : Type} {ofForm? : Datum -> Option Value} {form : Json}
    {value : Value} (sure : Datum.Sure ofForm? form value)
    (nested : form.nesting ≤ MessagePack.nestingLimit) {bytes : List UInt8}
    (encoded : encode form = .ok bytes) (trailing : List UInt8) :
    decode ofForm? (MessagePack.write form ++ trailing) = .ok value := by
  have small := (frame_eq_ok_iff.mp encoded).1
  have fits : (MessagePack.write form).length < MessagePack.lengthLimit :=
    Nat.lt_of_le_of_lt small (by decide)
  rcases MessagePack.ofBytes?_write nested fits trailing with ⟨datum, read, shows⟩
  rw [decode, read, Option.bind_some, sure datum shows]

/-- The message stands behind the four bytes of its length. -/
theorem drop_of_encode {form : Json} {bytes : List UInt8} (encoded : encode form = .ok bytes) :
    bytes.drop 4 = MessagePack.write form := by
  rw [(frame_eq_ok_iff.mp encoded).2,
    List.drop_append_of_le_length (Nat.le_of_eq (length_bigEndian 4 _).symm),
    List.drop_of_length_le (Nat.le_of_eq (length_bigEndian 4 _)), List.nil_append]

/-- A peer that is sent a frame gets the value in it. -/
theorem receive_of_encode {Value : Type} {ofForm? : Datum -> Option Value} {form : Json}
    {value : Value} (sure : Datum.Sure ofForm? form value)
    (nested : form.nesting ≤ MessagePack.nestingLimit) {bytes : List UInt8}
    (encoded : encode form = .ok bytes) (rest : List UInt8) :
    (readFrame (bytes ++ rest)).1.bind (decode ofForm?) = .ok value ∧
      (readFrame (bytes ++ rest)).2 = rest := by
  have message := decode_write sure nested encoded []
  rw [List.append_nil] at message
  rw [readFrame_of_frame encoded rest]
  exact ⟨message, rfl⟩

end Wire

/-- What is encoded is decoded as it was, whatever stands behind the message:
every command whose payloads are normalised, and every reply but a success with null
data, which is received without data. -/
theorem decode_encoded :
    (forall (command : Command) (frame trailing : List UInt8),
      command.WellFormed -> command.Normalised ->
      command.toForm.nesting ≤ MessagePack.nestingLimit ->
      command.encode = .ok frame ->
      Command.decode (frame.drop 4 ++ trailing) = .ok command) ∧
    (forall (reply : Reply) (frame trailing : List UInt8),
      reply.WellFormed -> reply.toForm.nesting ≤ MessagePack.nestingLimit ->
      reply.encode = .ok frame ->
      Reply.decode (frame.drop 4 ++ trailing) = .ok reply.received) := by
  constructor
  · intro command frame trailing wellFormed normalised nested encoded
    have sure := Command.sure_ofForm? wellFormed
    rw [Command.received_of_normalised normalised] at sure
    rw [Wire.drop_of_encode encoded]
    exact Wire.decode_write sure nested encoded trailing
  · intro reply frame trailing wellFormed nested encoded
    rw [Wire.drop_of_encode encoded]
    exact Wire.decode_write (Reply.sure_ofForm? wellFormed) nested encoded trailing

/-- An update that no store would apply, with numbers at the ends of widths. -/
def unfitCommand : Command :=
  .modify "" ⟨none, [.arrayAppend .root .absent,
    .patch [("a", .array [.number (.ofInt64 (-129)), .number (.ofUInt64 65535), .object []])]],
    ["x y z"], some 256, [.overrides 3 18446744073709551615 ⟨[.field "."]⟩]⟩

theorem decode_unfitCommand :
    (Exists fun frame => unfitCommand.encode = .ok frame ∧
      Command.decode (frame.drop 4 ++ [0xc1]) = .ok unfitCommand) ∧
    (Exists fun frame => (Reply.ok (some .null) (some 5) none).encode = .ok frame ∧
      Reply.decode (frame.drop 4 ++ []) = .ok (.ok none (some 5) none)) := by
  have wellFormed : unfitCommand.WellFormed := by
    intro operation listed
    rcases List.mem_cons.mp listed with rfl | later
    · trivial
    · rcases List.mem_singleton.mp later with rfl
      simp [Operation.WellFormed, Json.WellFormed, Json.WellFormedMembers, Json.WellFormedItems,
        Members.Sorted]
  have normalised : unfitCommand.Normalised := by
    intro operation listed
    rcases List.mem_cons.mp listed with rfl | later
    · trivial
    · rcases List.mem_singleton.mp later with rfl
      trivial
  have small : (MessagePack.write unfitCommand.toForm).length ≤ Wire.maxMessageSize := by
    decide +kernel
  have replySmall :
      (MessagePack.write (Reply.ok (some .null) (some 5) none).toForm).length ≤
        Wire.maxMessageSize := by
    decide +kernel
  rcases Wire.exists_frame small with ⟨frame, encoded⟩
  rcases Wire.exists_frame replySmall with ⟨replyFrame, replyEncoded⟩
  refine ⟨⟨frame, encoded, ?_⟩, ⟨replyFrame, replyEncoded, ?_⟩⟩
  · exact decode_encoded.1 unfitCommand frame [0xc1] wellFormed normalised (by cbv) encoded
  · exact decode_encoded.2 (.ok (some .null) (some 5) none) replyFrame [] trivial (by cbv)
      replyEncoded

end Emend
