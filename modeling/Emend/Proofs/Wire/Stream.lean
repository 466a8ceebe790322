import Mathlib
import Emend.Proofs.Wire.RoundTrip

namespace Emend

/-!
# Streams of frames

Frames stand in a stream one behind the other, and nothing but their lengths tells where one
ends.  A reader that takes as many frames as were written gets their messages in order and
stops exactly where they end.  A reader whose stream ends inside a frame gets no message,
wherever the frame is cut.
-/

namespace Wire

/-- The frame of a message that is small enough for one. -/
def framed (message : List UInt8) : List UInt8 :=
  bigEndian 4 message.length ++ message

theorem readFrame_framed {message : List UInt8} (small : message.length ≤ maxMessageSize)
    (rest : List UInt8) : readFrame (framed message ++ rest) = (.ok message, rest) :=
  readFrame_of_frame (frame_eq_ok_iff.mpr ⟨small, rfl⟩) rest

theorem frame_eq_error_iff {message : List UInt8} {failure : Failure} :
    frame message = .error failure ↔
      failure = .messageTooLarge ∧ maxMessageSize < message.length := by
  rw [frame]
  split
  · next large =>
      constructor
      · intro refused
        exact ⟨(Except.error.inj refused).symm, large⟩
      · rintro ⟨rfl, _⟩
        rfl
  · next small =>
      constructor
      · intro refused
        cases refused
      · rintro ⟨_, large⟩
        exact absurd large small

/-! ## Many frames -/

/-- As many frames as are asked for, one after another, and what is left of the stream. -/
def readFrames : Nat → List UInt8 → List (Except Failure (List UInt8)) × List UInt8
  | 0, stream => ([], stream)
  | count + 1, stream =>
      let (message, behind) := readFrame stream
      let (messages, rest) := readFrames count behind
      (message :: messages, rest)

theorem readFrames_framed (messages : List (List UInt8)) (rest : List UInt8)
    (small : forall message, message ∈ messages -> message.length ≤ maxMessageSize) :
    readFrames messages.length (messages.flatMap framed ++ rest) = (messages.map .ok, rest) := by
  induction messages with
  | nil => rfl
  | cons message others ih =>
      rcases List.forall_mem_cons.mp small with ⟨here, later⟩
      rw [List.length_cons, List.flatMap_cons, List.append_assoc, readFrames,
        readFrame_framed here]
      dsimp only
      rw [ih later, List.map_cons]

/-! ## Frames that are cut -/

theorem takeBytes?_of_lt {count : Nat} {bytes : List UInt8} (short : bytes.length < count) :
    takeBytes? count bytes = none := by
  have part : (bytes.take count).length ≠ count :=
    Nat.ne_of_lt (Nat.lt_of_le_of_lt (List.length_take_le' count bytes) short)
  rw [takeBytes?]
  exact if_neg part

/-- A stream that ends inside a frame is used up, and the reader says whether it was looking
for the length or for the message. -/
theorem readFrame_of_cut {message front missing : List UInt8}
    (small : message.length ≤ maxMessageSize) (cut : framed message = front ++ missing)
    (lacking : missing ≠ []) :
    readFrame front =
      (.error (.connection (if front.length < 4 then "Read length failed: early eof"
        else "Read payload failed: early eof")), []) := by
  by_cases inLength : front.length < 4
  · rw [readFrame, takeNat?, takeBytes?_of_lt inLength, if_pos inLength]
    rfl
  · have split : Exists fun part => front = bigEndian 4 message.length ++ part ∧
        message = part ++ missing := by
      rcases List.append_eq_append_iff.mp cut with whole | ⟨part, starts, ends⟩
      · exact whole
      · have none : part = [] := by
          have lengths := congrArg List.length starts
          rw [length_bigEndian, List.length_append] at lengths
          exact List.length_eq_zero_iff.mp (by omega)
        subst part
        exact ⟨[], by rw [starts, List.append_nil, List.append_nil], ends.symm⟩
    rcases split with ⟨part, starts, whole⟩
    have fits : message.length < Nat.pow 256 4 := Nat.lt_of_le_of_lt small (by decide)
    have short : part.length < message.length := by
      rw [whole, List.length_append]
      exact Nat.lt_add_of_pos_right (List.length_pos_iff.mpr lacking)
    rw [if_neg inLength, starts, readFrame, takeNat?_bigEndian fits]
    simp only [if_neg (Nat.not_lt.mpr small), takeBytes?_of_lt short]

end Wire

/-! ## Messages in either direction -/

inductive Message where
  | command (sent : Command)
  | reply (received : Reply)

namespace Message

/-- The bytes that a message has in a frame. -/
def bytes : Message → List UInt8
  | .command sent => MessagePack.write sent.toForm
  | .reply received => MessagePack.write received.toForm

/-- The frame of a message. -/
def encode : Message → Except Failure (List UInt8)
  | .command sent => sent.encode
  | .reply received => received.encode

theorem encode_eq (message : Message) : message.encode = Wire.frame message.bytes := by
  cases message <;> rfl

theorem encode_eq_ok_iff {message : Message} {frame : List UInt8} :
    message.encode = .ok frame ↔
      message.bytes.length ≤ Wire.maxMessageSize ∧ frame = Wire.framed message.bytes := by
  rw [encode_eq]
  exact Wire.frame_eq_ok_iff

/-- Frames of messages are the framed bytes of messages that are small enough. -/
theorem framed_of_encode {messages : List Message} {frames : List (List UInt8)}
    (encoded : List.Forall₂ (fun message frame => message.encode = .ok frame) messages frames) :
    frames.flatten = (messages.map bytes).flatMap Wire.framed ∧
      forall bytes, bytes ∈ messages.map Message.bytes -> bytes.length ≤ Wire.maxMessageSize := by
  induction encoded with
  | nil => exact ⟨rfl, fun bytes listed => False.elim (List.not_mem_nil listed)⟩
  | cons here _ ih =>
      rcases encode_eq_ok_iff.mp here with ⟨small, rfl⟩
      rw [List.flatten_cons, List.map_cons, List.flatMap_cons, ih.1]
      exact ⟨rfl, List.forall_mem_cons.mpr ⟨small, ih.2⟩⟩

/-- Frames of messages are read back from a stream in their order, and what stands behind
them is left; a frame that is cut is a broken connection; messages are refused for their
size alone, and whatever is not refused is announced with its true length and accepted by
the reader. -/
theorem readFrames_of_encode :
    (forall (messages : List Message) (frames : List (List UInt8)) (rest : List UInt8),
      List.Forall₂ (fun message frame => message.encode = .ok frame) messages frames ->
      Wire.readFrames messages.length (frames.flatten ++ rest) =
        (messages.map fun message => .ok message.bytes, rest)) ∧
    (forall (message : Message) (frame front missing : List UInt8),
      message.encode = .ok frame -> frame = front ++ missing -> missing ≠ [] ->
      Exists fun detail => Wire.readFrame front = (.error (.connection detail), [])) ∧
    (forall (message : Message) (failure : Failure),
      message.encode = .error failure <->
        failure = .messageTooLarge ∧ Wire.maxMessageSize < message.bytes.length) ∧
    forall (message : Message) (frame rest : List UInt8), message.encode = .ok frame ->
      Wire.ofBigEndian (frame.take 4) = message.bytes.length ∧
      frame.drop 4 = message.bytes ∧
      Wire.readFrame (frame ++ rest) = (.ok message.bytes, rest) := by
  refine ⟨?_, ?_, ?_, ?_⟩
  · intro messages frames rest encoded
    rcases framed_of_encode encoded with ⟨stream, small⟩
    have read := Wire.readFrames_framed (messages.map bytes) rest small
    rw [List.length_map, List.map_map] at read
    rw [stream]
    exact read
  · intro message frame front missing encoded cut lacking
    rcases encode_eq_ok_iff.mp encoded with ⟨small, rfl⟩
    exact ⟨_, Wire.readFrame_of_cut small cut lacking⟩
  · intro message failure
    rw [encode_eq]
    exact Wire.frame_eq_error_iff
  · intro message frame rest encoded
    rcases encode_eq_ok_iff.mp encoded with ⟨small, rfl⟩
    have fits : message.bytes.length < Nat.pow 256 4 := Nat.lt_of_le_of_lt small (by decide)
    have width : 4 = (Wire.bigEndian 4 message.bytes.length).length :=
      (Wire.length_bigEndian 4 _).symm
    refine ⟨?_, ?_, Wire.readFrame_framed small rest⟩
    · rw [Wire.framed, List.take_left' width.symm, Wire.ofBigEndian_bigEndian fits]
    · rw [Wire.framed, List.drop_left' width.symm]

/-- The frame of the shortest command. -/
def pingFrame : List UInt8 :=
  [0, 0, 0, 10, 129, 163, 99, 109, 100, 164, 112, 105, 110, 103]

/-- The frame of the reply to it. -/
def pongFrame : List UInt8 :=
  [0, 0, 0, 24, 130, 166, 115, 116, 97, 116, 117, 115, 164, 112, 111, 110, 103, 169, 116, 105,
    109, 101, 115, 116, 97, 109, 112, 5]

/-- Two frames with half of a third one behind them, and a frame cut inside its length. -/
theorem readFrames_pingPong :
    (Message.command .ping).encode = .ok pingFrame ∧
    (Message.reply (.pong 5)).encode = .ok pongFrame ∧
    Wire.readFrames 2 ([pingFrame, pongFrame].flatten ++ pingFrame.take 7) =
      ([.ok (pingFrame.drop 4), .ok (pongFrame.drop 4)], pingFrame.take 7) ∧
    (Exists fun detail => Wire.readFrame (pingFrame.take 3) = (.error (.connection detail), [])) ∧
    Wire.ofBigEndian (pongFrame.take 4) = (Message.reply (.pong 5)).bytes.length := by
  have pingBytes : (Message.command .ping).bytes = pingFrame.drop 4 := by
    decide +kernel
  have pongBytes : (Message.reply (.pong 5)).bytes = pongFrame.drop 4 := by
    decide +kernel
  have ping : (Message.command .ping).encode = .ok pingFrame := by
    rw [encode_eq_ok_iff, pingBytes]
    decide
  have pong : (Message.reply (.pong 5)).encode = .ok pongFrame := by
    rw [encode_eq_ok_iff, pongBytes]
    decide
  refine ⟨ping, pong, ?_, ?_, ?_⟩
  · rw [← pingBytes, ← pongBytes]
    exact readFrames_of_encode.1 [.command .ping, .reply (.pong 5)] [pingFrame, pongFrame] _
      (.cons ping (.cons pong .nil))
  · exact readFrames_of_encode.2.1 (.command .ping) pingFrame (pingFrame.take 3) (pingFrame.drop 3)
      ping rfl (by decide)
  · exact (readFrames_of_encode.2.2.2 (.reply (.pong 5)) pongFrame [] pong).1

end Message
end Emend
