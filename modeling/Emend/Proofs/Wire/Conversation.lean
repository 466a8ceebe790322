import Mathlib
import Emend.Proofs.Wire.Client
import Emend.Proofs.Wire.Stream
import Emend.Wire.Session

namespace Emend

/-!
# Conversations

A client makes one call after another on the same session.  Nothing in a reply says which
call it belongs to; the client takes the next frame for the reply to the command that it
wrote last.  So a call has to read one frame if it wrote one and none otherwise, whatever
stands in the frame, or all later calls get the replies to earlier ones.

A peer is in step if its bytes make up one frame for each command.  It need not send the
bytes of a frame in one piece, nor wait for the command, but the frame has to be there when
the client reads it.
-/

/-! ## Calls and their answers -/

namespace Client

/-- A call of a client. -/
inductive Call where
  | ping
  | authenticate (username password : String)
  | submit (update : Update)

/-- What a call gives its caller. -/
inductive Answer where
  | ping (result : Except Failure Int64)
  | authenticate (result : Except Failure Unit)
  | submit (result : Except Failure Outcome)
  deriving DecidableEq

namespace Call

/-- The command of a call.  Updates without a collection have none. -/
def command? (database : String) : Call → Option Command
  | .ping => some .ping
  | .authenticate username password => some (.auth database username password)
  | .submit update => if update.collection.isNone then none else some (.modify database update)

/-- What a call makes of the reply, or of the failure to get one. -/
def interpret : Call → Except Failure Reply → Answer
  | .ping, reply => .ping (reply.bind timestampOf)
  | .authenticate _ _, reply => .authenticate (reply.bind acceptanceOf)
  | .submit _, reply => .submit (reply.bind Outcome.ofReply)

/-- The frame that a call writes, unless it is rejected before. -/
def frame? (database : String) (call : Call) : Option (List UInt8) :=
  (call.command? database).bind fun command => command.encode.toOption

/-- The answer of a call that writes nothing. -/
def rejected (database : String) (call : Call) : Answer :=
  match call.command? database with
  | none => call.interpret (.error .noCollection)
  | some _ => call.interpret (.error .messageTooLarge)

/-- The answer that a message gives to a call. -/
def told (call : Call) (message : List UInt8) : Answer :=
  call.interpret (Reply.decode message)

/-- The answer of a call that fails. -/
def failing : Call → Failure → Answer
  | .ping, failure => .ping (.error failure)
  | .authenticate _ _, failure => .authenticate (.error failure)
  | .submit _, failure => .submit (.error failure)

/-- What a message tells a call, case by case.  A call fails on a message that is no reply, with
a detail that is up to the reader, on a reply that tells of a failure, and on a reply of a kind
that it does not expect. -/
inductive Tells (message : List UInt8) : Call → Answer → Prop where
  | unreadable {call : Call} {detail : String}
      (unread : (MessagePack.ofBytes? message).bind Reply.ofForm? = none) :
      Tells message call (call.failing (.protocol ("Deserialization failed: " ++ detail)))
  | refusal {call : Call} {failure : Failure} (read : Reply.decode message = .ok (.error failure)) :
      Tells message call (call.failing failure)
  | alive {timestamp : Int64} (read : Reply.decode message = .ok (.pong timestamp)) :
      Tells message .ping (.ping (.ok timestamp))
  | noPong {data : Option Json} {count : Option UInt64} {transaction : Option String}
      (read : Reply.decode message = .ok (.ok data count transaction)) :
      Tells message .ping (.ping (.error (.protocol "Expected pong response")))
  | accepted {username password : String} {data : Option Json} {count : Option UInt64}
      {transaction : Option String}
      (read : Reply.decode message = .ok (.ok data count transaction)) :
      Tells message (.authenticate username password) (.authenticate (.ok ()))
  | noAcceptance {username password : String} {timestamp : Int64}
      (read : Reply.decode message = .ok (.pong timestamp)) :
      Tells message (.authenticate username password)
        (.authenticate (.error (.protocol "Unexpected response")))
  | outcome {update : Update} {reply : Reply} {result : Except Failure Outcome}
      (read : Reply.decode message = .ok reply) (told : Outcome.ToldBy reply result) :
      Tells message (.submit update) (.submit result)

end Call
end Client

open Client (Call Answer)

namespace Command

variable {command : Command}

theorem toOption_encode_eq_some_iff {frame : List UInt8} :
    command.encode.toOption = some frame ↔ command.encode = .ok frame := by
  cases command.encode with
  | ok bytes => exact ⟨fun same => congrArg Except.ok (Option.some.inj same), fun same =>
      congrArg some (Except.ok.inj same)⟩
  | error failure => exact ⟨nofun, nofun⟩

/-- A command that is not framed is too large. -/
theorem toOption_encode_eq_none_iff :
    command.encode.toOption = none ↔ command.encode = .error .messageTooLarge := by
  cases encoded : command.encode with
  | ok frame => exact ⟨nofun, nofun⟩
  | error failure =>
      rw [encode, Wire.encode, Wire.frame_eq_error_iff] at encoded
      rw [encoded.1]
      exact ⟨fun _ => rfl, fun _ => rfl⟩

end Command

namespace Client.Call

theorem command?_eq_none_iff {database : String} {call : Call} :
    call.command? database = none ↔
      Exists fun update => call = .submit update ∧ update.collection = none := by
  cases call with
  | ping => exact ⟨nofun, nofun⟩
  | authenticate username password => exact ⟨nofun, nofun⟩
  | submit update => simp only [command?, Option.isNone_iff_eq_none, ite_eq_left_iff, reduceCtorEq,
      imp_false, not_not, submit.injEq, exists_eq_left']

theorem frame?_eq_some_iff {database : String} {call : Call} {frame : List UInt8} :
    call.frame? database = some frame ↔
      Exists fun command => call.command? database = some command ∧ command.encode = .ok frame := by
  rw [frame?, Option.bind_eq_some_iff]
  simp only [Command.toOption_encode_eq_some_iff]

/-- Two kinds of calls write nothing: updates without a collection and commands that are too
large. -/
theorem frame?_eq_none_iff {database : String} {call : Call} :
    call.frame? database = none ↔
      (Exists fun update => call = .submit update ∧ update.collection = none) ∨
      Exists fun command =>
        call.command? database = some command ∧ command.encode = .error .messageTooLarge := by
  rw [← command?_eq_none_iff, frame?]
  cases call.command? database with
  | none => exact ⟨fun _ => .inl rfl, fun _ => rfl⟩
  | some command =>
      rw [Option.bind_some, Command.toOption_encode_eq_none_iff]
      constructor
      · exact fun large => .inr ⟨command, rfl, large⟩
      · rintro (missing | ⟨other, same, large⟩)
        · cases missing
        · cases same
          exact large

theorem tells_told (call : Call) (message : List UInt8) :
    call.Tells message (call.told message) := by
  cases read : (MessagePack.ofBytes? message).bind Reply.ofForm? with
  | none =>
      have failed : call.told message =
          call.failing (.protocol ("Deserialization failed: " ++ "malformed message")) := by
        rw [told, Reply.decode, Wire.decode, read]
        cases call <;> rfl
      rw [failed]
      exact .unreadable read
  | some reply =>
      have decoded : Reply.decode message = .ok reply := by
        rw [Reply.decode, Wire.decode, read]
      rw [told, decoded]
      cases call with
      | ping =>
          cases reply with
          | ok data count transaction => exact .noPong decoded
          | error failure => exact .refusal decoded
          | pong timestamp => exact .alive decoded
      | authenticate username password =>
          cases reply with
          | ok data count transaction => exact .accepted decoded
          | error failure => exact .refusal decoded
          | pong timestamp => exact .noAcceptance decoded
      | submit update => exact .outcome decoded (Outcome.toldBy_ofReply reply)

end Client.Call

/-! ## One call -/

namespace Session

variable {State : Type} {peer : Peer State} {database : String} {call : Call}
  {session : Session State}

/-- Make a call. -/
def perform (peer : Peer State) (database : String) (call : Call) (session : Session State) :
    Answer × Session State :=
  match call with
  | .ping => Prod.map .ping id (ping peer session)
  | .authenticate username password =>
      Prod.map .authenticate id (authenticate peer database username password session)
  | .submit update => Prod.map .submit id (submit peer database update session)

/-- Every call comes down to one exchange. -/
theorem perform_of_command {command : Command} (made : call.command? database = some command) :
    perform peer database call session =
      (call.interpret (exchange peer command session).1, (exchange peer command session).2) := by
  cases call with
  | ping =>
      cases made
      rfl
  | authenticate username password =>
      cases made
      rfl
  | submit update =>
      rw [Call.command?] at made
      split at made
      · cases made
      · next named =>
          cases made
          rw [perform, submit, Client.submit, if_neg named]
          rfl

theorem perform_of_no_frame (unsent : call.frame? database = none) :
    perform peer database call session = (call.rejected database, session) := by
  rcases Call.frame?_eq_none_iff.mp unsent with ⟨update, rfl, missing⟩ | ⟨command, made, large⟩
  · rw [Call.rejected, Call.command?_eq_none_iff.mpr ⟨update, rfl, missing⟩, perform, submit,
      Client.submit, missing]
    rfl
  · rw [perform_of_command made, exchange, large, Call.rejected, made]

/-- A call that writes a frame takes what can be read of the stream for its reply, and leaves the
rest of the stream as it is. -/
theorem perform_of_written {frame : List UInt8} (written : call.frame? database = some frame) :
    perform peer database call session =
      (call.interpret ((Wire.readFrame
          (session.incoming ++ (peer.answer session.peerState frame).1)).1.bind Reply.decode),
        ⟨session.sent ++ [frame],
          (Wire.readFrame (session.incoming ++ (peer.answer session.peerState frame).1)).2,
          (peer.answer session.peerState frame).2⟩) := by
  rcases Call.frame?_eq_some_iff.mp written with ⟨command, made, encoded⟩
  rw [perform_of_command made, exchange, encoded]

/-- A call that writes a frame takes the next message of the stream for its reply, even if
the message is no reply. -/
theorem perform_of_frame {frame message rest : List UInt8} (sent : call.frame? database = some frame)
    (small : message.length ≤ Wire.maxMessageSize)
    (stream : session.incoming ++ (peer.answer session.peerState frame).1 =
      Wire.framed message ++ rest) :
    perform peer database call session =
      (call.told message,
        ⟨session.sent ++ [frame], rest, (peer.answer session.peerState frame).2⟩) := by
  rw [perform_of_written sent, stream, Wire.readFrame_framed small]
  rfl

theorem sent_perform (peer : Peer State) (database : String) (call : Call)
    (session : Session State) :
    (perform peer database call session).2.sent = session.sent ++ (call.frame? database).toList := by
  cases sent : call.frame? database with
  | none => rw [perform_of_no_frame sent, Option.toList_none, List.append_nil]
  | some frame =>
      rw [perform_of_written sent]
      rfl

/-! ## Many calls -/

/-- Make calls one after another. -/
def performAll (peer : Peer State) (database : String) :
    List Call → Session State → List Answer × Session State
  | [], session => ([], session)
  | call :: rest, session =>
      let (answer, next) := perform peer database call session
      let (answers, last) := performAll peer database rest next
      (answer :: answers, last)

theorem performAll_cons (peer : Peer State) (database : String) (call : Call) (rest : List Call)
    (session : Session State) :
    performAll peer database (call :: rest) session =
      ((perform peer database call session).1 ::
        (performAll peer database rest (perform peer database call session).2).1,
        (performAll peer database rest (perform peer database call session).2).2) := rfl

/-- Whatever the peer sends, the client writes the frames of its calls. -/
theorem sent_performAll (peer : Peer State) (database : String) (calls : List Call) :
    forall session : Session State,
      (performAll peer database calls session).2.sent =
        session.sent ++ calls.filterMap (Call.frame? database) := by
  induction calls with
  | nil => exact fun session => (List.append_nil session.sent).symm
  | cons call rest ih =>
      intro session
      rw [performAll_cons, ih, sent_perform, List.filterMap_cons, List.append_assoc]
      cases call.frame? database <;> rfl

end Session

/-! ## Peers in step -/

/-- The bytes that a peer sends for each of the frames that are written to it. -/
def Peer.deliveries {State : Type} (peer : Peer State) : State → List (List UInt8) → List (List UInt8)
  | _, [] => []
  | state, frame :: rest =>
      (peer.answer state frame).1 :: peer.deliveries (peer.answer state frame).2 rest

/-- What has come early and what is delivered for each command make up the frames of
messages, one for each command.  A frame is complete at the latest with the delivery for its
command. -/
structure FrameByFrame (early : List UInt8) (deliveries messages : List (List UInt8)) : Prop where
  counted : messages.length = deliveries.length
  small : forall message, message ∈ messages -> message.length ≤ Wire.maxMessageSize
  stream : early ++ deliveries.flatten = messages.flatMap Wire.framed
  timely : forall count, count ≤ deliveries.length ->
    ((messages.take count).flatMap Wire.framed).length ≤
      (early ++ (deliveries.take count).flatten).length

theorem FrameByFrame.nil {early : List UInt8} {messages : List (List UInt8)}
    (inStep : FrameByFrame early [] messages) : messages = [] ∧ early = [] := by
  have none : messages = [] := List.length_eq_zero_iff.mp inStep.counted
  have stream := inStep.stream
  rw [none, List.flatten_nil, List.append_nil] at stream
  exact ⟨none, stream⟩

/-- When the first frame has been read, the peer is still in step. -/
theorem FrameByFrame.cons {early delivery : List UInt8} {deliveries messages : List (List UInt8)}
    (inStep : FrameByFrame early (delivery :: deliveries) messages) :
    Exists fun message => Exists fun others => Exists fun rest =>
      messages = message :: others ∧ message.length ≤ Wire.maxMessageSize ∧
      early ++ delivery = Wire.framed message ++ rest ∧ FrameByFrame rest deliveries others := by
  cases messages with
  | nil => cases inStep.counted
  | cons message others =>
      rcases List.forall_mem_cons.mp inStep.small with ⟨here, later⟩
      have stream := inStep.stream
      rw [List.flatten_cons, List.flatMap_cons, ← List.append_assoc] at stream
      have complete : (Wire.framed message).length ≤ (early ++ delivery).length := by
        have first := inStep.timely 1 (Nat.succ_le_succ (Nat.zero_le _))
        simpa only [List.take_succ_cons, List.take_zero, List.flatMap_cons, List.flatMap_nil,
          List.flatten_cons, List.flatten_nil, List.append_nil] using first
      have split : Exists fun rest => early ++ delivery = Wire.framed message ++ rest ∧
          rest ++ deliveries.flatten = others.flatMap Wire.framed := by
        rcases List.append_eq_append_iff.mp stream with ⟨part, ends, behind⟩ | ⟨rest, ends, behind⟩
        · have none : part = [] := by
            rw [ends, List.length_append] at complete
            exact List.length_eq_zero_iff.mp (by omega)
          subst part
          exact ⟨[], by rw [ends, List.append_nil, List.append_nil], behind⟩
        · exact ⟨rest, ends, behind.symm⟩
      rcases split with ⟨rest, front, behind⟩
      refine ⟨message, others, rest, rfl, here, front,
        ⟨Nat.succ.inj inStep.counted, later, behind, ?_⟩⟩
      intro count inRange
      have next := inStep.timely (count + 1) (Nat.succ_le_succ inRange)
      rw [List.take_succ_cons, List.take_succ_cons, List.flatMap_cons, List.flatten_cons,
        ← List.append_assoc, front, List.append_assoc] at next
      rw [List.length_append, List.length_append] at next
      exact Nat.le_of_add_le_add_left next

/-! ## Answers in step -/

/-- Every call has its answer.  The answer of a call that wrote a frame is told by the
message with the number of that frame, and by no other. -/
structure InStep (database : String) (calls : List Call) (messages : List (List UInt8))
    (answers : List Answer) : Prop where
  answered : answers.length = calls.length
  rejected : forall (position : Nat) (call : Call), calls[position]? = some call ->
    call.frame? database = none -> answers[position]? = some (call.rejected database)
  told : forall (position : Nat) (call : Call) (frame : List UInt8),
    calls[position]? = some call -> call.frame? database = some frame ->
    Exists fun message =>
      messages[((calls.take position).filterMap (Call.frame? database)).length]? = some message ∧
      answers[position]? = some (call.told message)

variable {database : String} {call : Call} {calls : List Call} {messages : List (List UInt8)}
  {answers : List Answer}

theorem InStep.cons_rejected (later : InStep database calls messages answers)
    (unsent : call.frame? database = none) :
    InStep database (call :: calls) messages (call.rejected database :: answers) where
  answered := congrArg (· + 1) later.answered
  rejected position other found quiet := by
    cases position with
    | zero =>
        cases found
        rfl
    | succ position => exact later.rejected position other found quiet
  told position other frame found sent := by
    cases position with
    | zero =>
        cases found
        cases unsent.symm.trans sent
    | succ position =>
        rw [List.take_succ_cons, List.filterMap_cons_none unsent]
        exact later.told position other frame found sent

theorem InStep.cons_told {message frame : List UInt8} (later : InStep database calls messages answers)
    (written : call.frame? database = some frame) :
    InStep database (call :: calls) (message :: messages) (call.told message :: answers) where
  answered := congrArg (· + 1) later.answered
  rejected position other found quiet := by
    cases position with
    | zero =>
        cases found
        cases written.symm.trans quiet
    | succ position => exact later.rejected position other found quiet
  told position other bytes found sent := by
    cases position with
    | zero =>
        cases found
        exact ⟨message, rfl, rfl⟩
    | succ position =>
        rw [List.take_succ_cons, List.filterMap_cons_some written]
        exact later.told position other bytes found sent

namespace Session

theorem inStep_performAll {State : Type} {peer : Peer State} (database : String) (calls : List Call) :
    forall (session : Session State) (messages : List (List UInt8)),
      FrameByFrame session.incoming
        (peer.deliveries session.peerState (calls.filterMap (Call.frame? database))) messages ->
      InStep database calls messages (performAll peer database calls session).1 ∧
        (performAll peer database calls session).2.incoming = [] := by
  induction calls with
  | nil =>
      intro session messages delivered
      exact ⟨⟨rfl, nofun, nofun⟩, delivered.nil.2⟩
  | cons call rest ih =>
      intro session messages delivered
      rw [performAll_cons]
      cases sent : call.frame? database with
      | none =>
          rw [List.filterMap_cons_none sent] at delivered
          rw [perform_of_no_frame sent]
          rcases ih session messages delivered with ⟨later, quiet⟩
          exact ⟨later.cons_rejected sent, quiet⟩
      | some frame =>
          rw [List.filterMap_cons_some sent, Peer.deliveries] at delivered
          rcases delivered.cons with ⟨message, others, left, rfl, small, stream, deliveredThen⟩
          rw [perform_of_frame sent small stream]
          rcases ih ⟨session.sent ++ [frame], left, (peer.answer session.peerState frame).2⟩ others
            deliveredThen with ⟨later, quiet⟩
          exact ⟨later.cons_told sent, quiet⟩

/-- On a new connection to a peer in step the client writes the greeting and the frames of
its calls and nothing else, each call that wrote a frame is answered by the message of the
same number, and in the end nothing is left unread.  Calls without a frame are answered at
once and leave the connection as it was: those are the updates without a collection and the
commands that are too large.  What a message answers to a call is told by the message alone. -/
theorem performAll_in_step {State : Type} {peer : Peer State} {state : State} {early : List UInt8}
    {database : String} {calls : List Call} {messages : List (List UInt8)}
    (delivered : FrameByFrame early
      (peer.deliveries state (calls.filterMap (Call.frame? database))) messages) :
    (performAll peer database calls ⟨[], early, state⟩).2.written =
      greeting ++ (calls.filterMap (Call.frame? database)).flatten ∧
    InStep database calls messages (performAll peer database calls ⟨[], early, state⟩).1 ∧
    (performAll peer database calls ⟨[], early, state⟩).2.incoming = [] ∧
    forall call : Call,
      (call.frame? database = none <->
        (Exists fun update => call = .submit update ∧ update.collection = none) ∨
        Exists fun command =>
          call.command? database = some command ∧ command.encode = .error .messageTooLarge) ∧
      (call.frame? database = none -> forall session : Session State,
        perform peer database call session = (call.rejected database, session)) ∧
      forall message : List UInt8, call.Tells message (call.told message) := by
  rcases inStep_performAll database calls ⟨[], early, state⟩ messages delivered with ⟨inStep, quiet⟩
  refine ⟨?_, inStep, quiet,
    fun call => ⟨Call.frame?_eq_none_iff, fun unsent session => ?_, call.tells_told⟩⟩
  · rw [written, sent_performAll, List.nil_append]
  · exact perform_of_no_frame unsent

/-- Four calls, of which the second is rejected. -/
def undeterred : List Call :=
  [.ping, .submit ⟨none, [], [], none, []⟩, .authenticate "u" "p", .ping]

/-- The frame of the third call. -/
def authFrame : List UInt8 :=
  [0, 0, 0, 43, 132, 163, 99, 109, 100, 164, 97, 117, 116, 104, 168, 100, 97, 116, 97, 98, 97, 115,
    101, 161, 100, 168, 117, 115, 101, 114, 110, 97, 109, 101, 161, 117, 168, 112, 97, 115, 115,
    119, 111, 114, 100, 161, 112]

/-- The frame of a reply that tells of a failure. -/
def refusalFrame : List UInt8 :=
  [0, 0, 0, 37, 130, 166, 115, 116, 97, 116, 117, 115, 165, 101, 114, 114, 111, 114, 165, 101, 114,
    114, 111, 114, 129, 173, 68, 97, 116, 97, 98, 97, 115, 101, 69, 114, 114, 111, 114, 161, 120]

/-- A failure, bytes that are no reply and a sign of life.  The second frame starts together
with the first one. -/
def faltering : List (List UInt8 × Bool) :=
  [(refusalFrame ++ [0, 0], true), ([0, 1, 0xc1], true), (Message.pongFrame, true)]

/-- What the frames of the peer hold. -/
def falteringMessages : List (List UInt8) :=
  [refusalFrame.drop 4, [0xc1], Message.pongFrame.drop 4]

/-- The last call gets its own reply after two failures and a rejection. -/
theorem performAll_undeterred :
    (performAll Peer.scripted "d" undeterred ⟨[], [], faltering⟩).2.written =
      greeting ++ [Message.pingFrame, authFrame, Message.pingFrame].flatten ∧
    (performAll Peer.scripted "d" undeterred ⟨[], [], faltering⟩).1[0]? =
      some (.ping (.error (.database "x"))) ∧
    (performAll Peer.scripted "d" undeterred ⟨[], [], faltering⟩).1[1]? =
      some (.submit (.error .noCollection)) ∧
    (performAll Peer.scripted "d" undeterred ⟨[], [], faltering⟩).1[2]? =
      some (.authenticate (.error (.protocol "Deserialization failed: malformed message"))) ∧
    (performAll Peer.scripted "d" undeterred ⟨[], [], faltering⟩).1[3]? = some (.ping (.ok 5)) ∧
    (performAll Peer.scripted "d" undeterred ⟨[], [], faltering⟩).2.incoming = [] := by
  have frames : undeterred.filterMap (Call.frame? "d") =
      [Message.pingFrame, authFrame, Message.pingFrame] := by
    decide +kernel
  have delivered : FrameByFrame []
      (Peer.scripted.deliveries faltering (undeterred.filterMap (Call.frame? "d")))
      falteringMessages := by
    rw [frames]
    exact ⟨rfl, by decide, by decide, by decide⟩
  rcases performAll_in_step delivered with ⟨written, inStep, quiet, _⟩
  have refused : Call.told .ping (refusalFrame.drop 4) = .ping (.error (.database "x")) := by
    decide +kernel
  have garbled : Call.told (.authenticate "u" "p") [0xc1] =
      .authenticate (.error (.protocol "Deserialization failed: malformed message")) := by
    decide +kernel
  have alive : Call.told .ping (Message.pongFrame.drop 4) = .ping (.ok 5) := by
    decide +kernel
  have before : ((undeterred.take 2).filterMap (Call.frame? "d")).length = 1 ∧
      ((undeterred.take 3).filterMap (Call.frame? "d")).length = 2 := by
    decide +kernel
  refine ⟨frames ▸ written, ?_, ?_, ?_, ?_, quiet⟩
  · rcases inStep.told 0 .ping Message.pingFrame rfl (by decide +kernel) with ⟨_, same, answered⟩
    cases same
    exact answered.trans (congrArg some refused)
  · exact inStep.rejected 1 _ rfl rfl
  · rcases inStep.told 2 _ authFrame rfl (by decide +kernel) with ⟨_, same, answered⟩
    rw [before.1] at same
    cases same
    exact answered.trans (congrArg some garbled)
  · rcases inStep.told 3 .ping Message.pingFrame rfl (by decide +kernel) with ⟨_, same, answered⟩
    rw [before.2] at same
    cases same
    exact answered.trans (congrArg some alive)

end Session
end Emend
