import Emend.Wire.Client

namespace Emend

/-!
# Sessions

A session is the client's end of a connection to a peer that answers every
frame with some bytes, possibly none.  What the peer sends and the client has
not read stays in the stream; when the stream is used up the connection has
ended.
-/

/-- A peer answers the bytes of a frame in a state that it may change. -/
structure Peer (State : Type) where
  answer : State → List UInt8 → List UInt8 × State

/-- The bytes that open a connection. -/
def greeting : List UInt8 :=
  Text.utf8 "docmod-drv-v1\x00"

structure Session (State : Type) where
  /-- The frames that the client has written, in their order. -/
  sent : List (List UInt8)
  /-- The bytes from the peer that the client has not read. -/
  incoming : List UInt8
  peerState : State

namespace Session

/-- A new connection to a peer in the given state. -/
def connect {State : Type} (state : State) : Session State :=
  ⟨[], [], state⟩

/-- Everything the client has written. -/
def written {State : Type} (session : Session State) : List UInt8 :=
  greeting ++ session.sent.flatten

/-- Send a command and read the next frame.  A command that is too large is not
sent, and then nothing is read. -/
def exchange {State : Type} (peer : Peer State) : Exchange (StateM (Session State)) :=
  fun command session =>
    match command.encode with
    | .error failure => (.error failure, session)
    | .ok frame =>
        let (bytes, state) := peer.answer session.peerState frame
        let (message, rest) := Wire.readFrame (session.incoming ++ bytes)
        (message.bind Reply.decode, ⟨session.sent ++ [frame], rest, state⟩)

/-- Ask the peer for a sign of life. -/
def ping {State : Type} (peer : Peer State) (session : Session State) :
    Except Failure Int64 × Session State :=
  Client.ping (exchange peer) session

/-- Show credentials for a database. -/
def authenticate {State : Type} (peer : Peer State) (database username password : String)
    (session : Session State) : Except Failure Unit × Session State :=
  Client.authenticate (exchange peer) database username password session

/-- Submit an update to a database. -/
def submit {State : Type} (peer : Peer State) (database : String) : Submission (Session State) :=
  fun update session => Client.submit (exchange peer) database update session

end Session

/-! ## Peers -/

/-- A peer that answers from a list, whatever it is sent.  With each answer it
says whether it goes on afterwards; when the list is used up it falls
silent. -/
def Peer.scripted : Peer (List (List UInt8 × Bool)) where
  answer
    | [], _ => ([], [])
    | (bytes, goesOn) :: rest, _ => (bytes, if goesOn then rest else [])

/-- The reply of a store to a command, and the store afterwards. -/
def Store.reply (store : Store) : Command → Reply × Store
  | .modify _ update =>
      match store.submit update with
      | (.ok outcome, store) => (outcome.toReply, store)
      | (.error failure, store) => (.error failure, store)
  | .auth _ _ _ => (.ok none none none, store)
  | .ping => (.pong 0, store)

/-- A peer that carries out updates on a store.  It is silent on frames that it
cannot read, and when its reply is too large. -/
def Peer.serving : Peer Store where
  answer store frame :=
    match (Wire.readFrame frame).1.bind Command.decode with
    | .error _ => ([], store)
    | .ok command =>
        let (reply, store) := store.reply command
        (reply.encode.toOption.getD [], store)

end Emend
