import Emend.Statement
import Emend.Store

namespace Emend

/-!
# Execution

A statement is executed by compiling it and submitting the update to whatever
carries updates out.  Both a store and a session with a remote store do.
-/

/-- Submit an update in a state: the outcome or a failure, and the state
afterwards. -/
abbrev Submission (State : Type) := Update → State → Except Failure Outcome × State

namespace Statement

/-- Compile a statement and submit the update.  A statement that does not
compile is never submitted. -/
def execute {State : Type} (submit : Submission State) (statement : Statement) (state : State) :
    Except Failure Outcome × State :=
  match statement.compile with
  | .error fault => (.error (.ofFault fault), state)
  | .ok update => submit update state

end Statement

/-- Submit an update to a store. -/
def Store.submit : Submission Store := fun update store =>
  let (result, store) := store.answer update
  (result.mapError Refusal.toFailure, store)

end Emend
