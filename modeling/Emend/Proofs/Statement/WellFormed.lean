import Emend.Proofs.Json.WellFormed
import Emend.Proofs.Statement.Calls

namespace Emend

/-!
# Well-formed statements

The documents that calls bring are objects with their names in order, whether
they come as values or are read from texts.  So are, then, the patches of every
statement that calls build, whichever of them fail.
-/

namespace Statement

def WellFormed (statement : Statement) : Prop :=
  forall document, .patch document ∈ statement.operations -> (Json.object document).WellFormed

/-- Only the call that brings a patch as a value can bring one whose names are
out of order. -/
def Call.WellFormed : Call -> Prop
  | .patch document => document.WellFormed
  | _ => True

/-! ## What a call adds -/

theorem wellFormed_ofText? {text : String} {document : Json}
    (read : Json.ofText? text = some document) : document.WellFormed := by
  rw [Json.ofText?] at read
  rcases Option.bind_eq_some_iff.mp read with ⟨datum, _, valued⟩
  exact Datum.wellFormed_of_toJson? datum document valued

theorem wellFormed_of_adds {call : Call} (wellFormed : call.WellFormed) {document : Members Json}
    (adds : call.Adds (.patch document)) : (Json.object document).WellFormed := by
  generalize same : Operation.patch document = operation at adds
  cases adds with
  | set value reached => cases value <;> cases same
  | patch members =>
      cases same
      exact wellFormed
  | patchText read =>
      cases same
      exact wellFormed_ofText? read
  | change | unset | arrayInsert | arrayAppend => cases same

/-! ## Calls one after another -/

theorem wellFormed_empty : empty.WellFormed := by
  intro document listed
  cases listed

theorem WellFormed.performAll {statement : Statement} {calls : List Call}
    (wellFormed : statement.WellFormed)
    (callsWellFormed : forall call, call ∈ calls -> call.WellFormed) :
    (statement.performAll calls).WellFormed := by
  intro document listed
  have patches : forall operation, operation ∈ (statement.performAll calls).operations ->
      forall document, operation = .patch document -> (Json.object document).WellFormed := by
    apply forall_operations_performAll
    · rintro call called operation adds patch rfl
      exact wellFormed_of_adds (callsWellFormed call called) adds
    · rintro operation inStatement patch rfl
      exact wellFormed patch inStatement
  exact patches _ listed document rfl

end Statement
end Emend
