import Emend.Failure
import Emend.Operation.Effect
import Emend.Outcome
import Emend.Store.Selection
import Emend.Update

namespace Emend

/-!
# Stores

A store holds collections of documents by name; the documents of a collection
stand in the order in which they came.  An update is applied to all selected
documents or to none.

The key of a document is its identity: an update that would take it away or
give it another value is refused as a whole.
-/

structure Store where
  collections : Members (List Json)

namespace Store

/-- The member that identifies a document. -/
def keyField : String := "_key"

/-! ## Contents -/

def empty : Store := ⟨[]⟩

/-- The store with a collection of the given documents; an older collection of
that name is gone. -/
def addCollection (store : Store) (name : String) (documents : List Json) : Store :=
  ⟨Members.insert name documents store.collections⟩

/-- The documents of a collection. -/
def documents? (store : Store) (name : String) : Option (List Json) :=
  Members.get? store.collections name

/-- The store with one more document at the end of a collection, which is made
if it is not there. -/
def insert (store : Store) (name : String) (document : Json) : Store :=
  store.addCollection name ((store.documents? name).getD [] ++ [document])

def hasCollection (store : Store) (name : String) : Bool :=
  (store.documents? name).isSome

/-- The names of the collections in their order. -/
def names (store : Store) : List String :=
  store.collections.map (·.1)

/-- The contents as an object of arrays. -/
def toJson (store : Store) : Json :=
  .object (store.collections.map fun (name, documents) => (name, .array documents))

/-! ## Refusals -/

/-- Why a store refuses to be loaded or updated. -/
inductive Refusal where
  | notObject
  | notArray (collection : String) (kind : Json.Kind)
  | fault (cause : Fault)
  | noCollection
  | unknownCollection (name : String)
  /-- The update would not keep this key. -/
  | keyChanged (key : Json)

/-- How a message about the contents of a store names a kind of values. -/
def Refusal.kindName : Json.Kind → String
  | .null => "null"
  | .bool => "bool"
  | .number => "number"
  | .string => "string"
  | .array => "array"
  | .object => "object"

def Refusal.toFailure : Refusal → Failure
  | .notObject => .command "Store data must be an object of collections"
  | .notArray collection kind =>
      .command ("Collection '" ++ collection ++ "' must be an array, got " ++ kindName kind)
  | .fault cause => .ofFault cause
  | .noCollection => .noCollection
  | .unknownCollection name => .database ("Collection not found: " ++ name)
  | .keyChanged key => .database ("Forbidden update of " ++ keyField ++ " (" ++ key.compact ++ ")")

/-! ## Loading -/

/-- The collections of an object of arrays. -/
def collectionsOf : List (String × Json) → Except Refusal (Members (List Json))
  | [] => .ok []
  | (name, .array documents) :: rest => do
      let others ← collectionsOf rest
      pure ((name, documents) :: others)
  | (name, other) :: _ => .error (.notArray name other.kind)

/-- The store with the contents of an object of arrays. -/
def ofJson : Json → Except Refusal Store
  | .object members => (collectionsOf members).map Store.mk
  | _ => .error .notObject

/-! ## Updating one document -/

/-- A copy of a document on which the operations of an update are carried out,
and the warnings given so far in the whole update. -/
structure Work where
  document : Json
  warnings : List String

/-- The warning about an operation that misses its target. -/
def missWarning (index : Nat) (kind : Operation.Kind) (position : Nat) : String :=
  "operation #" ++ toString index ++ " (" ++ kind.name ++ ") had no target in document " ++
    toString position

/-- Carry out one numbered operation on a copy of the document at a position.
An operation that misses leaves a warning and nothing else. -/
def Work.step (position : Nat) (work : Work) (numbered : Operation × Nat) : Work :=
  match numbered.1.effect? work.document with
  | some changed => { work with document := changed }
  | none =>
      let warning := missWarning numbered.2 numbered.1.kind position
      { work with warnings := work.warnings ++ [warning] }

/-- Carry out all operations on a copy, numbered from zero. -/
def Work.run (operations : List Operation) (position : Nat) (work : Work) : Work :=
  operations.zipIdx.foldl (Work.step position) work

/-- Refuse a new document whose key does not equal the one that the original
has. -/
def checkKey (original updated : Json) : Except Refusal Unit :=
  match original.member? keyField with
  | none => .ok ()
  | some key =>
      match updated.member? keyField with
      | none => .error (.keyChanged key)
      | some newKey => if newKey.equal key then .ok () else .error (.keyChanged key)

/-! ## Updating a collection -/

/-- What an update has prepared: the new documents by their positions, and the
warnings.  Nothing of it is in the collection yet. -/
structure Batch where
  updates : List (Nat × Json)
  warnings : List String

/-- Prepare the document at a position.  A new document that equals the
original is not kept. -/
def Batch.visit (operations : List Operation) (documents : List Json) (batch : Batch)
    (position : Nat) : Except Refusal Batch := do
  let original := documents.getD position .null
  let work := Work.run operations position ⟨original, batch.warnings⟩
  checkKey original work.document
  if work.document.equal original then
    pure { batch with warnings := work.warnings }
  else
    pure ⟨batch.updates ++ [(position, work.document)], work.warnings⟩

/-- Prepare the documents at the selected positions one after another, up to the
first that is refused. -/
def Batch.prepare (operations : List Operation) (documents : List Json) (selected : List Nat) :
    Except Refusal Batch :=
  selected.foldlM (Batch.visit operations documents) ⟨[], []⟩

/-- A collection after the prepared documents have been put in their places. -/
def Batch.commit (batch : Batch) (documents : List Json) : List Json :=
  batch.updates.foldl (fun documents update => documents.set update.1 update.2) documents

/-- The name of the collection that an update goes to. -/
def target (update : Update) : Except Refusal String :=
  match update.collection with
  | none => .error .noCollection
  | some name => .ok name

/-- The documents of a collection that must be there. -/
def require (store : Store) (name : String) : Except Refusal (List Json) :=
  match store.documents? name with
  | none => .error (.unknownCollection name)
  | some documents => .ok documents

/-- Apply an update to the store: the outcome, or the reason why it is
refused. -/
def apply (update : Update) : ExceptT Refusal (StateM Store) Outcome := do
  ofExcept (update.validate.mapError .fault)
  let keys ← ofExcept (update.sortKeys.mapError .fault)
  let name ← ofExcept (target update)
  let store ← get
  let documents ← ofExcept (store.require name)
  let selected := select documents keys update.limit
  let batch ← ofExcept (Batch.prepare update.operations documents selected)
  set (store.addCollection name (batch.commit documents))
  pure {
    affected := UInt64.ofNat batch.updates.length
    generatedIds := []
    warnings := batch.warnings }

/-- The result of an update, and the store afterwards. -/
def answer (store : Store) (update : Update) : Except Refusal Outcome × Store :=
  (apply update).run store

end Store
end Emend
