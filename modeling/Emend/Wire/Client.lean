import Emend.Execution
import Emend.Wire.Message

namespace Emend

/-!
# Clients

A client makes calls by exchanging messages: it sends a command and gets a
reply.  What a call makes of the reply does not depend on how messages are
exchanged, so the exchange is a parameter.
-/

/-! ## Outcomes in replies -/

namespace Outcome

/-- A list of strings in the data of a reply.  It may be missing or null.  What is
said behind the name of something that is no such list is, as in `Wire.decode`, the
reader's own wording. -/
def stringsIn (data : Json) (name : String) : Except Failure (List String) :=
  match data.member? name with
  | none | some .null => .ok []
  | some value =>
      match Datum.toList? Datum.toText? (.ofJson value) with
      | some texts => .ok texts
      | none => .error (.protocol ("Invalid " ++ name ++ ": not a list of strings"))

/-- The outcome that a reply to an update tells. -/
def ofReply : Reply → Except Failure Outcome
  | .ok none count _ => .ok (.ofCount (count.getD 0))
  | .ok (some data) count _ => do
      let generatedIds ← stringsIn data "generated_ids"
      let warnings ← stringsIn data "warnings"
      pure ⟨count.getD 0, generatedIds, warnings⟩
  | .error failure => .error failure
  | .pong _ => .error (.protocol "Unexpected pong response to modify")

/-- The reply that tells an outcome.  Data are sent only if there is something
in them. -/
def toReply (outcome : Outcome) : Reply :=
  let data :=
    if outcome.generatedIds.isEmpty && outcome.warnings.isEmpty then none
    else
      some (.object [("generated_ids", .array (outcome.generatedIds.map .string)),
        ("warnings", .array (outcome.warnings.map .string))])
  .ok data (some outcome.affected) none

end Outcome

/-! ## Calls -/

/-- Send a command and get the reply to it. -/
abbrev Exchange (m : Type → Type) := Command → m (Except Failure Reply)

namespace Client

/-- The time that a reply to a ping tells. -/
def timestampOf : Reply → Except Failure Int64
  | .pong timestamp => .ok timestamp
  | .error failure => .error failure
  | .ok _ _ _ => .error (.protocol "Expected pong response")

/-- Whether a reply to credentials accepts them. -/
def acceptanceOf : Reply → Except Failure Unit
  | .ok _ _ _ => .ok ()
  | .error failure => .error failure
  | .pong _ => .error (.protocol "Unexpected response")

/-- Ask the peer for a sign of life. -/
def ping {m : Type → Type} [Monad m] (exchange : Exchange m) : m (Except Failure Int64) := do
  let reply ← exchange .ping
  pure (reply.bind timestampOf)

/-- Show credentials for a database. -/
def authenticate {m : Type → Type} [Monad m] (exchange : Exchange m)
    (database username password : String) : m (Except Failure Unit) := do
  let reply ← exchange (.auth database username password)
  pure (reply.bind acceptanceOf)

/-- Submit an update to a database.  An update without a collection is not
sent. -/
def submit {m : Type → Type} [Monad m] (exchange : Exchange m) (database : String)
    (update : Update) : m (Except Failure Outcome) :=
  if update.collection.isNone then
    pure (.error .noCollection)
  else do
    let reply ← exchange (.modify database update)
    pure (reply.bind Outcome.ofReply)

end Client
end Emend
