import Emend.Fault

namespace Emend

/-!
# Failures

A failure is what a caller is told when an update was not carried out.  It may
come from far away, so apart from its kind it is only a text.
-/

inductive Failure where
  | connection (detail : String)
  | protocol (detail : String)
  | database (detail : String)
  | auth (detail : String)
  | messageTooLarge
  | command (detail : String)
  | statement (detail : String)
  deriving DecidableEq

namespace Failure

def message : Failure → String
  | .connection detail => "Connection error: " ++ detail
  | .protocol detail => "Protocol error: " ++ detail
  | .database detail => "Database error: " ++ detail
  | .auth detail => "Auth error: " ++ detail
  | .messageTooLarge => "Message too large"
  | .command detail => "Invalid command: " ++ detail
  | .statement detail => "Statement error: " ++ detail

/-- The failure of a statement with a fault. -/
def ofFault (fault : Fault) : Failure :=
  .statement fault.message

/-- An update without a collection cannot be carried out anywhere. -/
def noCollection : Failure :=
  .command "Modify statement has no target collection"

end Failure
end Emend
