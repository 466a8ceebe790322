import Mathlib
import Emend.Proofs.Statement.Compile
import Emend.Proofs.Store.AllOrNothing
import Emend.Proofs.Wire.Client
import Emend.Proofs.Wire.RoundTrip
import Emend.Wire.Session

namespace Emend

/-!
# Sessions with a store

A statement may be executed on a store at hand, or on a store behind a session.
The way through the session is long: the command and the reply are written,
framed, read and interpreted, and the client looks for the collection before it
sends anything, where the store looks for it only after the validation.  None of
this can be told from the result, as long as the messages keep within the limits
of the wire and the payloads are normalised.

With a payload that is null the two ways part.  The store at hand sets the null; the
store behind the session gets an absent payload, with which setting removes.  So the
general law is about the update as it is received, and the two ways agree where that is
the update that was sent.
-/

/-! ## Replies of a store -/

namespace Store

/-- The reply that tells a result. -/
def replyOf : Except Failure Outcome -> Reply
  | .ok outcome => outcome.toReply
  | .error failure => .error failure

theorem reply_modify (store : Store) (database : String) (update : Update) :
    store.reply (.modify database update) =
      (replyOf (store.submit update).1, (store.submit update).2) := by
  rw [reply]
  rcases store.submit update with ⟨result, after⟩
  cases result <;> rfl

theorem ofReply_replyOf (result : Except Failure Outcome) :
    Outcome.ofReply (replyOf result) = result := by
  cases result with
  | ok outcome => exact outcome.ofReply_toReply
  | error failure => rfl

/-- Replies of a store are received as they are. -/
theorem replyOf_sendable (result : Except Failure Outcome) :
    (replyOf result).WellFormed ∧ (replyOf result).received = replyOf result ∧
      (replyOf result).toForm.nesting ≤ MessagePack.nestingLimit := by
  cases result with
  | ok outcome =>
      rcases outcome.toReply_sendable with ⟨wellFormed, received, shallow⟩
      exact ⟨wellFormed, received, Nat.le_trans shallow (by decide)⟩
  | error failure =>
      have shallow := failure.nesting_toForm
      have nested : (Reply.error failure).toForm.nesting ≤ 2 := by
        simp [Reply.toForm, Json.nesting, Json.nestingMembers, shallow]
      exact ⟨trivial, rfl, Nat.le_trans nested (by decide)⟩

end Store

/-! ## One exchange -/

namespace Session

variable {session : Session Store} {database : String} {update : Update}

/-- The limits of the wire, for an update and the reply to it: no frame is too
large, and what is sent is not nested too deep for the reader.  Replies never
are. -/
structure Fits (database : String) (update : Update) (store : Store) : Prop where
  command : Exists fun frame => (Command.modify database update).encode = .ok frame
  nested : (Command.modify database update).toForm.nesting ≤ MessagePack.nestingLimit
  reply : Exists fun frame => (store.reply (.modify database update.received)).1.encode = .ok frame

/-- The frames fit if the messages in them do. -/
theorem Fits.of_length_le {store : Store}
    (command : (MessagePack.write (Command.modify database update).toForm).length ≤
      Wire.maxMessageSize)
    (nested : (Command.modify database update).toForm.nesting ≤ MessagePack.nestingLimit)
    {result : Except Failure Outcome} (told : (store.submit update.received).1 = result)
    (reply : (MessagePack.write (Store.replyOf result).toForm).length ≤ Wire.maxMessageSize) :
    Fits database update store where
  command := by
    rw [Command.encode, Wire.encode]
    exact Wire.exists_frame command
  nested := nested
  reply := by
    rw [Store.reply_modify, told, Reply.encode, Wire.encode]
    exact Wire.exists_frame reply

theorem exchange_serving (quiet : session.incoming = []) (wellFormed : update.WellFormed)
    (fits : Fits database update session.peerState) :
    Exists fun frame =>
      exchange Peer.serving (.modify database update) session =
        (.ok (Store.replyOf (session.peerState.submit update.received).1),
          ⟨session.sent ++ [frame], [], (session.peerState.submit update.received).2⟩) := by
  rcases fits.command with ⟨frame, encoded⟩
  rcases fits.reply with ⟨replyFrame, replied⟩
  rw [Store.reply_modify] at replied
  rcases Store.replyOf_sendable (session.peerState.submit update.received).1 with
    ⟨replyWellFormed, received, shallow⟩
  have atPeer : (Wire.readFrame frame).1.bind Command.decode =
      .ok (.modify database update.received) := by
    have commandWellFormed : (Command.modify database update).WellFormed := wellFormed
    have got := (Wire.receive_of_encode (Command.sure_ofForm? commandWellFormed) fits.nested
      encoded []).1
    rw [List.append_nil] at got
    exact got
  have answered : Peer.serving.answer session.peerState frame =
      (replyFrame, (session.peerState.submit update.received).2) := by
    simp only [Peer.serving, atPeer, Store.reply_modify, replied]
    rfl
  have back := Wire.receive_of_encode (Reply.sure_ofForm? replyWellFormed) shallow replied []
  rw [List.append_nil, received] at back
  refine ⟨frame, ?_⟩
  simp only [exchange, encoded, answered, quiet, List.nil_append]
  rw [back.2]
  exact congrArg (·, _) back.1

/-- Submitting to the store behind a session is submitting to the store what it receives. -/
theorem submit_serving (quiet : session.incoming = []) (wellFormed : update.WellFormed)
    (named : update.collection.isSome) (fits : Fits database update session.peerState) :
    Exists fun frame =>
      submit Peer.serving database update session =
        ((session.peerState.submit update.received).1,
          ⟨session.sent ++ [frame], [], (session.peerState.submit update.received).2⟩) := by
  rcases exchange_serving quiet wellFormed fits with ⟨frame, exchanged⟩
  refine ⟨frame, ?_⟩
  have notUnnamed : update.collection.isNone = false := Option.isNone_eq_false_iff.mpr named
  have sent : submit Peer.serving database update session =
      ((exchange Peer.serving (.modify database update) session).1.bind Outcome.ofReply,
        (exchange Peer.serving (.modify database update) session).2) := by
    rw [submit, Client.submit, notUnnamed]
    rfl
  rw [sent, exchanged]
  exact congrArg (·, _) (Store.ofReply_replyOf _)

/-- Without a collection, the client refuses an update like the store, and sends nothing. -/
theorem submit_unnamed {peer : Peer Store} (unnamed : update.collection = none) :
    submit peer database update session = (.error .noCollection, session) := by
  rw [submit, Client.submit, unnamed]
  rfl

end Session

/-! ## Whole executions -/

namespace Statement

/-- An execution through a session ends like one on a store: with the same outcome or failure
and the same contents.  The session can be used again afterwards. -/
structure EndsLike (remote : Except Failure Outcome × Session Store)
    (direct : Except Failure Outcome × Store) : Prop where
  result : remote.1 = direct.1
  contents : remote.2.peerState = direct.2
  quiet : remote.2.incoming = []

variable {calls : List Call} {statement : Statement} {database : String} {session : Session Store}

theorem execute_of_compile {State : Type} {update : Update}
    (compiled : statement.compile = .ok update) (submit : Submission State) (state : State) :
    statement.execute submit state = submit update state := by
  rw [execute, compiled]

/-- The store behind the session carries out the update that it receives. -/
theorem endsLike_received (built : statement = empty.performAll calls)
    (bring : forall call, call ∈ calls -> call.BringsDocument) (quiet : session.incoming = [])
    {update : Update} (compiled : statement.compile = .ok update)
    (named : update.collection.isSome)
    (fits : Session.Fits database update session.peerState) :
    EndsLike (statement.execute (Session.submit Peer.serving database) session)
      (session.peerState.submit update.received) := by
  have wellFormed : update.WellFormed := wellFormed_of_compile bring (built ▸ compiled)
  rcases Session.submit_serving quiet wellFormed named fits with ⟨frame, submitted⟩
  rw [execute_of_compile compiled, submitted]
  exact ⟨rfl, rfl, rfl⟩

/-- What is not submitted ends in one way, with a session or without. -/
theorem endsLike_unsubmitted (quiet : session.incoming = [])
    (unsubmitted : forall update, statement.compile = .ok update -> update.collection = none) :
    EndsLike (statement.execute (Session.submit Peer.serving database) session)
      (statement.execute Store.submit session.peerState) := by
  cases compiled : statement.compile with
  | error fault =>
      rw [execute, execute, compiled]
      exact ⟨rfl, rfl, quiet⟩
  | ok update =>
      have unnamed := unsubmitted update compiled
      have refused : session.peerState.submit update =
          (.error .noCollection, session.peerState) := by
        rw [Store.submit, Store.answer_of_unnamed (validate_of_compile compiled) unnamed]
        rfl
      rw [execute_of_compile compiled, execute_of_compile compiled,
        Session.submit_unnamed unnamed, refused]
      exact ⟨rfl, rfl, quiet⟩

/-- A statement that calls built is executed through a session as on the store behind it, if
its payloads are normalised.  Without that condition the store behind the session carries out
the update that it receives, in which the payloads that are null have become absent. -/
theorem execute_serving (built : statement = empty.performAll calls)
    (bring : forall call, call ∈ calls -> call.BringsDocument) (quiet : session.incoming = [])
    (fits : forall update, statement.compile = .ok update -> update.collection.isSome ->
      Session.Fits database update session.peerState) :
    ((forall update, statement.compile = .ok update -> update.collection.isSome ->
        update.Normalised) ->
      EndsLike (statement.execute (Session.submit Peer.serving database) session)
        (statement.execute Store.submit session.peerState)) ∧
    forall update, statement.compile = .ok update -> update.collection.isSome ->
      EndsLike (statement.execute (Session.submit Peer.serving database) session)
        (session.peerState.submit update.received) := by
  have ends : forall update, statement.compile = .ok update -> update.collection.isSome ->
      EndsLike (statement.execute (Session.submit Peer.serving database) session)
        (session.peerState.submit update.received) :=
    fun update compiled named =>
      endsLike_received built bring quiet compiled named (fits update compiled named)
  refine ⟨?_, ends⟩
  intro normalised
  cases compiled : statement.compile with
  | error fault =>
      refine endsLike_unsubmitted quiet ?_
      intro update same
      cases compiled.symm.trans same
  | ok update =>
      cases named : update.collection with
      | none =>
          refine endsLike_unsubmitted quiet ?_
          intro other same
          cases compiled.symm.trans same
          exact named
      | some name =>
          have isNamed : update.collection.isSome := by
            rw [named]
            rfl
          have sent := ends update compiled isNamed
          rw [Update.received_of_normalised (normalised update compiled isNamed)] at sent
          rw [execute_of_compile compiled Store.submit]
          exact sent

/-- A document gets one member and misses the other operation. -/
def halfMissing : List Call :=
  [.collection "c", .set "a" (.ofBool true), .unset ["b"]]

def halfMissingUpdate : Update :=
  ⟨some "c", [.set ⟨[.field "a"]⟩ (.ofBool true), .unset ⟨[.field "b"]⟩], [], none, []⟩

theorem execute_halfMissing :
    (empty.performAll halfMissing).compile = .ok halfMissingUpdate ∧
    halfMissingUpdate.Normalised ∧
    ((empty.performAll halfMissing).execute (Session.submit Peer.serving "d")
        (.connect ⟨[("c", [.object []])]⟩)).1 =
      .ok ⟨1, [], ["operation #1 (unset) had no target in document 0"]⟩ ∧
    ((empty.performAll halfMissing).execute (Session.submit Peer.serving "d")
        (.connect ⟨[("c", [.object []])]⟩)).2.peerState =
      ⟨[("c", [.object [("a", .bool true)]])]⟩ := by
  have told : (Store.submit halfMissingUpdate ⟨[("c", [.object []])]⟩).1 =
      .ok ⟨1, [], ["operation #1 (unset) had no target in document 0"]⟩ := by
    cbv
  have stored : (Store.submit halfMissingUpdate ⟨[("c", [.object []])]⟩).2 =
      ⟨[("c", [.object [("a", .bool true)]])]⟩ := by
    cbv
  have compiled : (empty.performAll halfMissing).compile = .ok halfMissingUpdate := by
    cbv
  have bring : forall call, call ∈ halfMissing -> call.BringsDocument := by
    simp [halfMissing, Call.BringsDocument, Payload.ofBool, Payload.toJson, Json.WellFormed]
  have normalised : halfMissingUpdate.Normalised := by
    simp [halfMissingUpdate, Update.Normalised, Operation.Normalised, Payload.ofBool,
      Payload.Normalised, Json.isNull]
  have fits : Session.Fits "d" halfMissingUpdate ⟨[("c", [.object []])]⟩ := by
    apply Session.Fits.of_length_le _ _ (Update.received_of_normalised normalised ▸ told)
    all_goals decide +kernel
  have remote := (@execute_serving halfMissing _ "d" (.connect ⟨[("c", [.object []])]⟩) rfl bring
    rfl (fun update same _ => by
      cases compiled.symm.trans same
      exact fits)).1
    (fun update same _ => by
      cases compiled.symm.trans same
      exact normalised)
  have direct : (empty.performAll halfMissing).execute Store.submit ⟨[("c", [.object []])]⟩ =
      Store.submit halfMissingUpdate ⟨[("c", [.object []])]⟩ :=
    execute_of_compile compiled _ _
  exact ⟨compiled, normalised, remote.result.trans ((congrArg Prod.fst direct).trans told),
    remote.contents.trans ((congrArg Prod.snd direct).trans stored)⟩

/-- A null is handed over as a payload, with no conversion that would make it absent. -/
def handedNull : List Call :=
  [.collection "c", .set "a" (.present .null)]

def handedNullUpdate : Update :=
  ⟨some "c", [.set ⟨[.field "a"]⟩ (.present .null)], [], none, []⟩

/-- With a null for a payload, the two ways part: the store at hand sets the null, and the
store behind the session removes what is not there. -/
theorem not_execute_serving_handedNull :
    (forall call, call ∈ handedNull -> call.BringsDocument) ∧
    (empty.performAll handedNull).compile = .ok handedNullUpdate ∧
    Session.Fits "d" handedNullUpdate ⟨[("c", [.object []])]⟩ ∧
    (empty.performAll handedNull).execute Store.submit ⟨[("c", [.object []])]⟩ =
      (.ok ⟨1, [], []⟩, ⟨[("c", [.object [("a", .null)]])]⟩) ∧
    EndsLike ((empty.performAll handedNull).execute (Session.submit Peer.serving "d")
        (.connect ⟨[("c", [.object []])]⟩))
      (.ok ⟨0, [], ["operation #0 (set) had no target in document 0"]⟩,
        ⟨[("c", [.object []])]⟩) ∧
    ¬ EndsLike ((empty.performAll handedNull).execute (Session.submit Peer.serving "d")
        (.connect ⟨[("c", [.object []])]⟩))
      ((empty.performAll handedNull).execute Store.submit ⟨[("c", [.object []])]⟩) := by
  have missed : (Store.submit handedNullUpdate.received ⟨[("c", [.object []])]⟩).1 =
      .ok ⟨0, [], ["operation #0 (set) had no target in document 0"]⟩ := by
    cbv
  have kept : (Store.submit handedNullUpdate.received ⟨[("c", [.object []])]⟩).2 =
      ⟨[("c", [.object []])]⟩ := by
    cbv
  have changed : (Store.submit handedNullUpdate ⟨[("c", [.object []])]⟩).1 =
      .ok ⟨1, [], []⟩ := by
    cbv
  have stored : (Store.submit handedNullUpdate ⟨[("c", [.object []])]⟩).2 =
      ⟨[("c", [.object [("a", .null)]])]⟩ := by
    cbv
  have compiled : (empty.performAll handedNull).compile = .ok handedNullUpdate := by
    cbv
  have direct : (empty.performAll handedNull).execute Store.submit ⟨[("c", [.object []])]⟩ =
      (.ok ⟨1, [], []⟩, ⟨[("c", [.object [("a", .null)]])]⟩) :=
    (execute_of_compile compiled _ _).trans (Prod.ext changed stored)
  have bring : forall call, call ∈ handedNull -> call.BringsDocument := by
    simp [handedNull, Call.BringsDocument, Payload.toJson, Json.WellFormed]
  have fits : Session.Fits "d" handedNullUpdate ⟨[("c", [.object []])]⟩ := by
    apply Session.Fits.of_length_le _ _ missed
    all_goals decide +kernel
  have remote : EndsLike ((empty.performAll handedNull).execute (Session.submit Peer.serving "d")
        (.connect ⟨[("c", [.object []])]⟩))
      (.ok ⟨0, [], ["operation #0 (set) had no target in document 0"]⟩,
        ⟨[("c", [.object []])]⟩) := by
    have received := @endsLike_received handedNull _ "d" (.connect ⟨[("c", [.object []])]⟩) rfl
      bring rfl handedNullUpdate compiled rfl fits
    exact ⟨received.result.trans missed, received.contents.trans kept, received.quiet⟩
  refine ⟨bring, compiled, fits, direct, remote, ?_⟩
  intro same
  rw [direct] at same
  cases remote.result.symm.trans same.result

end Statement

end Emend
