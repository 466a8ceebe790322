namespace Emend

/-!
# Outcomes

An outcome tells what an update did: how many documents it changed, the keys
that were made for new documents, and its warnings.
-/

structure Outcome where
  affected : UInt64
  generatedIds : List String
  warnings : List String
  deriving DecidableEq

/-- The outcome with a count alone. -/
def Outcome.ofCount (affected : UInt64) : Outcome :=
  ⟨affected, [], []⟩

end Emend
