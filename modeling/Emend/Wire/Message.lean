import Emend.Outcome
import Emend.Update.Form
import Emend.Wire.Frame
import Emend.Wire.MessagePack

namespace Emend

/-!
# Messages

A client sends commands and gets replies.  Both are written as tagged values in
MessagePack and travel in frames.
-/

inductive Command where
  | auth (database username password : String)
  | ping
  | modify (database : String) (update : Update)

inductive Reply where
  /-- Success, with optional data, an optional count and an optional
  transaction. -/
  | ok (data : Option Json) (count : Option UInt64) (transaction : Option String)
  | error (failure : Failure)
  | pong (timestamp : Int64)

/-! ## The form of failures -/

namespace Failure

/-- The written name of the failure without a text. -/
def tooLargeName : String := "MessageTooLarge"

/-- The kinds of failures by their written names, in the order of their
numbers; all but one come with a text. -/
def kinds : List (String × Option (String → Failure)) :=
  [("ConnectionError", some .connection), ("ProtocolError", some .protocol),
    ("DatabaseError", some .database), ("AuthError", some .auth), (tooLargeName, none),
    ("InvalidCommand", some .command), ("StatementError", some .statement)]

/-- The written name of the kind of a failure. -/
def name : Failure → String
  | .connection _ => "ConnectionError"
  | .protocol _ => "ProtocolError"
  | .database _ => "DatabaseError"
  | .auth _ => "AuthError"
  | .messageTooLarge => tooLargeName
  | .command _ => "InvalidCommand"
  | .statement _ => "StatementError"

/-- The written form of a failure: its name alone, or an object that maps the
name to the text. -/
def toForm (failure : Failure) : Json :=
  match failure with
  | .messageTooLarge => .string failure.name
  | .connection detail | .protocol detail | .database detail | .auth detail | .command detail
  | .statement detail => .object [(failure.name, .string detail)]

/-- A failure from its form.  The one without a text may also be written as an
object, with null behind its name; in data that were set aside an empty map
serves as well. -/
def ofForm? (aside : Bool) : Datum → Option Failure
  | .text name => if name = tooLargeName then some .messageTooLarge else none
  | .map [(key, value)] => do
      match ← Datum.choice? kinds key with
      | some make => value.toText?.map make
      | none =>
          match value with
          | .null => some .messageTooLarge
          | .map [] => if aside then some .messageTooLarge else none
          | _ => none
  | _ => none

end Failure

/-! ## The form of outcomes -/

namespace Outcome

/-- The written form of an outcome. -/
def toForm (outcome : Outcome) : Json :=
  .object [("affected_items_count", .number (.ofUInt64 outcome.affected)),
    ("generated_ids", .array (outcome.generatedIds.map .string)),
    ("warnings", .array (outcome.warnings.map .string))]

/-- An outcome from its form; both lists may be left out. -/
def ofForm? (datum : Datum) : Option Outcome := do
  match ← datum.slots? ["affected_items_count", "generated_ids", "warnings"] with
  | [affected, generatedIds, warnings] =>
      let affected ← affected.required? Datum.toUInt64?
      let generatedIds ← generatedIds.orElse? [] (Datum.toList? Datum.toText?)
      let warnings ← warnings.orElse? [] (Datum.toList? Datum.toText?)
      some ⟨affected, generatedIds, warnings⟩
  | _ => none

end Outcome

/-! ## The form of commands -/

namespace Command

/-- The variants of commands, in the order of their numbers. -/
inductive Variant where
  | auth
  | ping
  | modify

def Variant.options : List (String × Variant) :=
  [("auth", .auth), ("ping", .ping), ("modify", .modify)]

/-- The written form of a command. -/
def toForm : Command → Json
  | .auth database username password =>
      .object [("cmd", .string "auth"), ("database", .string database),
        ("username", .string username), ("password", .string password)]
  | .ping => .object [("cmd", .string "ping")]
  | .modify database update =>
      .object [("cmd", .string "modify"), ("database", .string database),
        ("statement", update.toForm)]

/-- A command from its form. -/
def ofForm? (datum : Datum) : Option Command := do
  let (tag, record) ← datum.untag? "cmd"
  match ← Datum.choice? Variant.options tag with
  | .auth =>
      match ← record.slots? ["database", "username", "password"] with
      | [database, username, password] =>
          let database ← database.required? Datum.toText?
          let username ← username.required? Datum.toText?
          let password ← password.required? Datum.toText?
          some (.auth database username password)
      | _ => none
  | .ping => if record.isEmptyRecord then some .ping else none
  | .modify =>
      match ← record.slots? ["database", "statement"] with
      | [database, update] =>
          let database ← database.required? Datum.toText?
          let update ← update.required? Update.ofForm?
          some (.modify database update)
      | _ => none

end Command

/-! ## The form of replies -/

namespace Reply

/-- The variants of replies, in the order of their numbers. -/
inductive Variant where
  | ok
  | error
  | pong

def Variant.options : List (String × Variant) :=
  [("ok", .ok), ("error", .error), ("pong", .pong)]

/-- The written form of a reply.  Of a success only what is there is
written. -/
def toForm : Reply → Json
  | .ok data count transaction =>
      let data := data.toList.map fun data => ("data", data)
      let count := count.toList.map fun count => ("count", Json.number (.ofUInt64 count))
      let transaction := transaction.toList.map fun name => ("tx_id", Json.string name)
      .object (("status", .string "ok") :: data ++ count ++ transaction)
  | .error failure => .object [("status", .string "error"), ("error", failure.toForm)]
  | .pong timestamp =>
      .object [("status", .string "pong"), ("timestamp", .number (.ofInt64 timestamp))]

/-- A reply from its form.  Data that are null count as missing. -/
def ofForm? (datum : Datum) : Option Reply := do
  let (tag, record) ← datum.untag? "status"
  match ← Datum.choice? Variant.options tag with
  | .ok =>
      match ← record.slots? ["data", "count", "tx_id"] with
      | [data, count, transaction] =>
          let data ← data.orMissing? none (Datum.orNull? Datum.toJson?)
          let count ← count.orMissing? none (Datum.orNull? Datum.toUInt64?)
          let transaction ← transaction.orMissing? none (Datum.orNull? Datum.toText?)
          some (.ok data count transaction)
      | _ => none
  | .error =>
      match ← record.slots? ["error"] with
      | [failure] => (failure.required? (Failure.ofForm? true)).map .error
      | _ => none
  | .pong =>
      match ← record.slots? ["timestamp"] with
      | [timestamp] => (timestamp.required? Datum.toInt64?).map .pong
      | _ => none

end Reply

/-! ## Bytes -/

namespace Wire

/-- The frame of a value. -/
def encode (form : Json) : Except Failure (List UInt8) :=
  frame (MessagePack.write form)

/-- A value from the bytes of its message.  Why a message cannot be read is told by
its reader in words of its own.  They stand behind the colon, and nothing depends on
them. -/
def decode {Value : Type} (ofForm? : Datum → Option Value) (message : List UInt8) :
    Except Failure Value :=
  match (MessagePack.ofBytes? message).bind ofForm? with
  | some value => .ok value
  | none => .error (.protocol "Deserialization failed: malformed message")

end Wire

/-- The frame of a command. -/
def Command.encode (command : Command) : Except Failure (List UInt8) :=
  Wire.encode command.toForm

/-- A command from the bytes of its message. -/
def Command.decode (message : List UInt8) : Except Failure Command :=
  Wire.decode Command.ofForm? message

/-- The frame of a reply. -/
def Reply.encode (reply : Reply) : Except Failure (List UInt8) :=
  Wire.encode reply.toForm

/-- A reply from the bytes of its message. -/
def Reply.decode (message : List UInt8) : Except Failure Reply :=
  Wire.decode Reply.ofForm? message

end Emend
