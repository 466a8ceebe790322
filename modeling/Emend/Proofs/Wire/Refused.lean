import Mathlib
import Emend.Proofs.Wire.Conversation

namespace Emend

/-!
# Refused frames

A frame above the limit is refused as soon as its length has been read.  What it announced is
not skipped: it stays in the stream, and the next call takes its first bytes for a length.
So a peer that sends frames only, each of its true length, still decides with the payload of
a refused frame what the calls after it are told.

What a peer sends is one stream of bytes for the client, whenever the bytes come.  Here all of
them have come before the first call, so that each frame of the stream can be read in time.
-/

open Client (Call Answer)

namespace Wire

variable {payload : List UInt8}

/-! ## Reading past a refused frame -/

/-- Of a frame above the limit only the length is read. -/
theorem readFrame_oversized (large : maxMessageSize < payload.length)
    (fits : payload.length < 2 ^ 32) (rest : List UInt8) :
    readFrame (framed payload ++ rest) = (.error .messageTooLarge, payload ++ rest) := by
  rw [framed, List.append_assoc, readFrame, takeNat?_bigEndian fits]
  exact if_pos large

/-- The first four bytes of a stream are the length, whatever they were meant for. -/
theorem readFrame_of_four_le {stream : List UInt8} (long : 4 ≤ stream.length) :
    readFrame stream =
      if maxMessageSize < ofBigEndian (stream.take 4) then (.error .messageTooLarge, stream.drop 4)
      else if stream.length < 4 + ofBigEndian (stream.take 4) then
        (.error (.connection "Read payload failed: early eof"), [])
      else
        (.ok ((stream.drop 4).take (ofBigEndian (stream.take 4))),
          stream.drop (4 + ofBigEndian (stream.take 4))) := by
  have front : takeNat? 4 stream = some (ofBigEndian (stream.take 4), stream.drop 4) := by
    rw [takeNat?, takeBytes?]
    exact congrArg (Option.map _) (if_pos (List.length_take_of_le long))
  have behind : (stream.drop 4).length = stream.length - 4 := List.length_drop
  rw [readFrame, front]
  generalize ofBigEndian (stream.take 4) = declared
  by_cases large : maxMessageSize < declared
  · simp only [if_pos large]
  · by_cases short : stream.length < 4 + declared
    · have lacking : (stream.drop 4).length < declared := by omega
      simp only [if_neg large, if_pos short, takeBytes?_of_lt lacking]
    · have whole : ((stream.drop 4).take declared).length = declared :=
        List.length_take_of_le (by omega)
      simp only [if_neg large, if_neg short, takeBytes?, if_pos whole, List.drop_drop]

theorem readFrames_succ (count : Nat) (stream : List UInt8) :
    readFrames (count + 1) stream =
      ((readFrame stream).1 :: (readFrames count (readFrame stream).2).1,
        (readFrames count (readFrame stream).2).2) := rfl

theorem readFrames_add (first second : Nat) :
    forall stream : List UInt8, readFrames (first + second) stream =
      ((readFrames first stream).1 ++ (readFrames second (readFrames first stream).2).1,
        (readFrames second (readFrames first stream).2).2) := by
  induction first with
  | zero =>
      intro stream
      rw [Nat.zero_add]
      rfl
  | succ first ih =>
      intro stream
      rw [Nat.succ_add, readFrames_succ, ih, readFrames_succ]
      rfl

end Wire

/-! ## Calls on a stream -/

/-- A peer that has sent everything already. -/
def Peer.silent : Peer Unit where
  answer _ _ := ([], ())

namespace Client

/-- The answers to calls when these frames are read for them, one for each call that writes one. -/
def answersTo (database : String) : List Call -> List (Except Failure (List UInt8)) -> List Answer
  | [], _ => []
  | call :: rest, messages =>
      match call.frame? database, messages with
      | none, messages => call.rejected database :: answersTo database rest messages
      | some _, [] => answersTo database rest []
      | some _, message :: others =>
          call.interpret (message.bind Reply.decode) :: answersTo database rest others

variable {database : String}

theorem answersTo_append {before : List Call} (after : List Call) :
    forall {messages : List (Except Failure (List UInt8))},
      messages.length = (before.filterMap (Call.frame? database)).length ->
      forall others : List (Except Failure (List UInt8)),
        answersTo database (before ++ after) (messages ++ others) =
          answersTo database before messages ++ answersTo database after others := by
  induction before with
  | nil =>
      intro messages counted others
      rw [List.length_eq_zero_iff.mp counted]
      rfl
  | cons call rest ih =>
      intro messages counted others
      cases sent : call.frame? database with
      | none =>
          rw [List.filterMap_cons_none sent] at counted
          rw [List.cons_append]
          simp only [answersTo, sent, ih counted others, List.cons_append]
      | some frame =>
          rw [List.filterMap_cons_some sent] at counted
          cases messages with
          | nil => cases counted
          | cons message messages =>
              rw [List.cons_append, List.cons_append]
              simp only [answersTo, sent, ih (Nat.succ.inj counted) others, List.cons_append]

end Client

namespace Session

variable {database : String}

/-- Whatever the peer, the call that meets a frame above the limit leaves the payload unread. -/
theorem perform_of_oversized {State : Type} {peer : Peer State} {session : Session State}
    {call : Call} {frame payload rest : List UInt8} (written : call.frame? database = some frame)
    (large : Wire.maxMessageSize < payload.length) (fits : payload.length < 2 ^ 32)
    (stream : session.incoming ++ (peer.answer session.peerState frame).1 =
      Wire.framed payload ++ rest) :
    perform peer database call session =
      (call.interpret (.error .messageTooLarge),
        ⟨session.sent ++ [frame], payload ++ rest, (peer.answer session.peerState frame).2⟩) := by
  rw [perform_of_written written, stream, Wire.readFrame_oversized large fits]
  rfl

theorem perform_silent {call : Call} {frame : List UInt8} (written : call.frame? database = some frame)
    (sent : List (List UInt8)) (stream : List UInt8) :
    perform Peer.silent database call ⟨sent, stream, ()⟩ =
      (call.interpret ((Wire.readFrame stream).1.bind Reply.decode),
        ⟨sent ++ [frame], (Wire.readFrame stream).2, ()⟩) := by
  rw [perform_of_written written]
  dsimp only [Peer.silent]
  rw [List.append_nil]

/-- Each call that writes a frame reads one frame of the stream. -/
theorem performAll_silent (database : String) (calls : List Call) :
    forall (sent : List (List UInt8)) (stream : List UInt8),
      performAll Peer.silent database calls ⟨sent, stream, ()⟩ =
        (Client.answersTo database calls
            (Wire.readFrames (calls.filterMap (Call.frame? database)).length stream).1,
          ⟨sent ++ calls.filterMap (Call.frame? database),
            (Wire.readFrames (calls.filterMap (Call.frame? database)).length stream).2, ()⟩) := by
  induction calls with
  | nil =>
      intro sent stream
      exact congrArg (fun sent => (([] : List Answer), (⟨sent, stream, ()⟩ : Session Unit)))
        (List.append_nil sent).symm
  | cons call rest ih =>
      intro sent stream
      rw [performAll_cons]
      cases written : call.frame? database with
      | none =>
          rw [perform_of_no_frame written, List.filterMap_cons_none written, ih]
          simp only [Client.answersTo, written]
      | some frame =>
          rw [perform_silent written, List.filterMap_cons_some written, ih, List.length_cons,
            Wire.readFrames]
          simp only [Client.answersTo, written, List.append_assoc, List.singleton_append]

/-- The calls before a refused frame are answered by their own frames, and those after it as if
the stream began with its payload. -/
theorem answers_past_refused {before : List Call} {call : Call} {frame : List UInt8}
    {messages : List (List UInt8)} {payload : List UInt8}
    (counted : messages.length = (before.filterMap (Call.frame? database)).length)
    (small : forall message, message ∈ messages -> message.length ≤ Wire.maxMessageSize)
    (written : call.frame? database = some frame)
    (large : Wire.maxMessageSize < payload.length) (fits : payload.length < 2 ^ 32)
    (after : List Call) (rest : List UInt8) :
    (performAll Peer.silent database (before ++ call :: after)
        ⟨[], messages.flatMap Wire.framed ++ (Wire.framed payload ++ rest), ()⟩).1 =
      Client.answersTo database before (messages.map .ok) ++
        call.interpret (.error .messageTooLarge) ::
          (performAll Peer.silent database after ⟨[], payload ++ rest, ()⟩).1 := by
  have counts : ((before ++ call :: after).filterMap (Call.frame? database)).length =
      messages.length + ((after.filterMap (Call.frame? database)).length + 1) := by
    rw [List.filterMap_append, List.filterMap_cons_some written, List.length_append,
      List.length_cons, counted]
  have first := Wire.readFrames_framed messages (Wire.framed payload ++ rest) small
  rw [performAll_silent, performAll_silent, counts, Wire.readFrames_add, first,
    Wire.readFrames_succ, Wire.readFrame_oversized large fits]
  dsimp only
  rw [Client.answersTo_append _ (by rw [List.length_map, counted])]
  simp only [Client.answersTo, written]
  rfl

/-- Frames of small messages are the answers to as many calls, whatever stands behind them. -/
theorem answers_of_framed {calls : List Call} {messages : List (List UInt8)}
    (counted : messages.length = (calls.filterMap (Call.frame? database)).length)
    (small : forall message, message ∈ messages -> message.length ≤ Wire.maxMessageSize)
    (sent : List (List UInt8)) (rest : List UInt8) :
    (performAll Peer.silent database calls ⟨sent, messages.flatMap Wire.framed ++ rest, ()⟩).1 =
      Client.answersTo database calls (messages.map .ok) := by
  rw [performAll_silent, ← counted, Wire.readFrames_framed messages rest small]

/-- A call that meets a frame above the limit fails and leaves the payload unread, whatever the
peer.  When a stream consists of frames, with one above the limit behind the replies to some
calls, these calls are answered by their frames, the next one fails, and the calls after it
are answered by the frames that the stream has when it is read from the payload on.  The first
of these has its length in the first four bytes of the payload and its message behind them.
So if the payload itself begins with frames of small messages, the calls are told these
messages. -/
theorem performAll_past_refused {before : List Call} {call : Call} {frame : List UInt8}
    {messages : List (List UInt8)} {payload : List UInt8}
    (counted : messages.length = (before.filterMap (Call.frame? database)).length)
    (small : forall message, message ∈ messages -> message.length ≤ Wire.maxMessageSize)
    (written : call.frame? database = some frame)
    (large : Wire.maxMessageSize < payload.length) (fits : payload.length < 2 ^ 32)
    (after : List Call) (rest : List UInt8) :
    (forall (State : Type) (peer : Peer State) (session : Session State),
      session.incoming ++ (peer.answer session.peerState frame).1 = Wire.framed payload ++ rest ->
      perform peer database call session =
        (call.interpret (.error .messageTooLarge),
          ⟨session.sent ++ [frame], payload ++ rest,
            (peer.answer session.peerState frame).2⟩)) ∧
    (performAll Peer.silent database (before ++ call :: after)
        ⟨[], messages.flatMap Wire.framed ++ (Wire.framed payload ++ rest), ()⟩).1 =
      Client.answersTo database before (messages.map .ok) ++
        call.interpret (.error .messageTooLarge) ::
          Client.answersTo database after
            (Wire.readFrames (after.filterMap (Call.frame? database)).length
              (payload ++ rest)).1 ∧
    (Wire.readFrame (payload ++ rest) =
      if Wire.maxMessageSize < Wire.ofBigEndian (payload.take 4) then
        (.error .messageTooLarge, payload.drop 4 ++ rest)
      else if payload.length + rest.length < 4 + Wire.ofBigEndian (payload.take 4) then
        (.error (.connection "Read payload failed: early eof"), [])
      else
        (.ok ((payload.drop 4 ++ rest).take (Wire.ofBigEndian (payload.take 4))),
          (payload.drop 4 ++ rest).drop (Wire.ofBigEndian (payload.take 4)))) ∧
    forall (hidden : List (List UInt8)) (behind : List UInt8),
      payload = hidden.flatMap Wire.framed ++ behind ->
      (forall message, message ∈ hidden -> message.length ≤ Wire.maxMessageSize) ->
      hidden.length = (after.filterMap (Call.frame? database)).length ->
      (performAll Peer.silent database (before ++ call :: after)
          ⟨[], messages.flatMap Wire.framed ++ (Wire.framed payload ++ rest), ()⟩).1 =
        Client.answersTo database before (messages.map .ok) ++
          call.interpret (.error .messageTooLarge) ::
            Client.answersTo database after (hidden.map .ok) := by
  have answered := answers_past_refused counted small written large fits after rest
  have four : 4 ≤ payload.length := Nat.le_trans (by decide) (Nat.le_of_lt large)
  refine ⟨fun State peer session => perform_of_oversized written large fits, ?_, ?_, ?_⟩
  · rw [answered, performAll_silent]
  · have front : (payload ++ rest).take 4 = payload.take 4 := List.take_append_of_le_length four
    have behind : (payload ++ rest).drop 4 = payload.drop 4 ++ rest :=
      List.drop_append_of_le_length four
    have long : 4 ≤ (payload ++ rest).length :=
      Nat.le_trans four (by rw [List.length_append]; exact Nat.le_add_right _ _)
    rw [Wire.readFrame_of_four_le long, front, ← List.drop_drop, behind, List.length_append]
  · intro hidden behind begins smallToo countedToo
    rw [answered, begins, List.append_assoc, answers_of_framed countedToo smallToo]

/-- A payload above the limit that begins with the frame of a reply. -/
def oversized : List UInt8 :=
  Message.pongFrame ++ List.replicate (Wire.maxMessageSize - 27) 0

theorem length_oversized : oversized.length = Wire.maxMessageSize + 1 := by
  rw [oversized, List.length_append, List.length_replicate]
  rfl

theorem large_oversized : Wire.maxMessageSize < oversized.length := by
  rw [length_oversized]
  exact Nat.lt_succ_self _

theorem fits_oversized : oversized.length < 2 ^ 32 := by
  rw [length_oversized]
  decide

/-- The message in the frame of that reply. -/
def pong : List UInt8 := Message.pongFrame.drop 4

theorem small_pong : forall message, message ∈ [pong] -> message.length ≤ Wire.maxMessageSize := by
  decide

theorem oversized_eq :
    oversized = [pong].flatMap Wire.framed ++ List.replicate (Wire.maxMessageSize - 27) 0 := by
  have framed : [pong].flatMap Wire.framed = Message.pongFrame := by
    decide
  rw [oversized, framed]

theorem frame?_ping : Call.frame? "d" .ping = some Message.pingFrame := by
  decide +kernel

theorem counted_ping : [pong].length = ([Call.ping].filterMap (Call.frame? "d")).length := by
  rw [List.filterMap_cons_some frame?_ping]
  rfl

theorem answersTo_pong : Client.answersTo "d" [.ping] [.ok pong] = [.ping (.ok 5)] := by
  have told : Call.told .ping pong = .ping (.ok 5) := by
    decide +kernel
  simp only [Client.answersTo, frame?_ping]
  exact congrArg (fun answer => [answer]) told

/-- The stream is a single frame, of its true length, and the second call is told a message that
lies inside its payload. -/
theorem not_in_step_past_refused :
    Wire.maxMessageSize < oversized.length ∧ oversized.length < 2 ^ 32 ∧
    (performAll Peer.silent "d" [.ping, .ping] ⟨[], Wire.framed oversized, ()⟩).1 =
      [.ping (.error .messageTooLarge), .ping (.ok 5)] := by
  have answered := @answers_past_refused "d" [] .ping Message.pingFrame [] oversized rfl nofun
    frame?_ping large_oversized fits_oversized [.ping] []
  rw [List.flatMap_nil, List.map_nil, List.append_nil, List.append_nil, List.nil_append,
    List.nil_append, Client.answersTo, List.nil_append] at answered
  have inside := answers_of_framed counted_ping small_pong []
    (List.replicate (Wire.maxMessageSize - 27) 0)
  rw [← oversized_eq, List.map_singleton, answersTo_pong] at inside
  rw [inside] at answered
  exact ⟨large_oversized, fits_oversized, answered⟩

/-- A call without a collection. -/
def nowhere : Call := .submit ⟨none, [], [], none, []⟩

/-- The same behind a call that is rejected and one that is answered, and in front of a further
frame, which is not reached. -/
theorem performAll_past_refused_oversized :
    (performAll Peer.silent "d" ([nowhere, .ping] ++ .ping :: [.ping])
        ⟨[], [pong].flatMap Wire.framed ++ (Wire.framed oversized ++ Message.pongFrame), ()⟩).1 =
      [.submit (.error .noCollection), .ping (.ok 5), .ping (.error .messageTooLarge),
        .ping (.ok 5)] := by
  have unsent : nowhere.frame? "d" = none := rfl
  have counted : [pong].length = ([nowhere, .ping].filterMap (Call.frame? "d")).length := by
    rw [List.filterMap_cons_none unsent]
    exact counted_ping
  have first : Client.answersTo "d" [nowhere, .ping] [.ok pong] =
      [.submit (.error .noCollection), .ping (.ok 5)] := by
    rw [Client.answersTo, answersTo_pong]
    · rfl
    · exact unsent
  have past := (performAll_past_refused counted small_pong frame?_ping large_oversized
    fits_oversized [.ping] Message.pongFrame).2.2.2 [pong] _ oversized_eq small_pong counted_ping
  rw [List.map_singleton, answersTo_pong, first] at past
  exact past

end Session
end Emend
