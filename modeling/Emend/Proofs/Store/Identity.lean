import Mathlib
import Emend.Proofs.Json.Equality
import Emend.Proofs.Store.AllOrNothing

namespace Emend
namespace Store

/-!
# Documents keep their identity

Whatever updates come to a store, carried out or refused, its collections stay and so do
the places of the documents in them.  The document at a place may change, from the kind of
value it is to every member it has; but once it has a key, the document at that place has
an equal one for ever.

The operations of an update know nothing of keys.  They may take the key away and
put it back, and only what they leave in the end is compared with what was there.
So the law is about whole updates: one update keeps the identity of all documents, and so
do any number of them, because keeping it is reflexive and transitive.
-/

/-! ## Places -/

/-- The document at a position of a collection. -/
def documentAt? (store : Store) (name : String) (position : Nat) : Option Json :=
  (store.documents? name).bind fun documents => documents[position]?

/-- The key of the document at a position of a collection. -/
def keyAt? (store : Store) (name : String) (position : Nat) : Option Json :=
  (store.documentAt? name position).bind fun document => document.member? keyField

/-- One store has the places of another one, and where the other one has a key it has an
equal one. -/
structure KeepsIdentity (before after : Store) : Prop where
  lengths : forall name,
    (after.documents? name).map List.length = (before.documents? name).map List.length
  keys : forall name position key, before.keyAt? name position = some key ->
    Exists fun kept => after.keyAt? name position = some kept ∧ kept.equal key = true

theorem KeepsIdentity.refl (store : Store) : KeepsIdentity store store :=
  ⟨fun _ => rfl, fun _ _ key found => ⟨key, found, key.equal_refl⟩⟩

theorem KeepsIdentity.trans {first second third : Store} (earlier : KeepsIdentity first second)
    (later : KeepsIdentity second third) : KeepsIdentity first third := by
  constructor
  · intro name
    exact (later.lengths name).trans (earlier.lengths name)
  · intro name position key found
    rcases earlier.keys name position key found with ⟨kept, present, same⟩
    rcases later.keys name position kept present with ⟨last, stillPresent, stillSame⟩
    exact ⟨last, stillPresent, Json.equal_trans last kept key stillSame same⟩

theorem KeepsIdentity.hasCollection {before after : Store} (kept : KeepsIdentity before after)
    (name : String) : after.hasCollection name = before.hasCollection name := by
  rw [Store.hasCollection, Store.hasCollection, ← Option.isSome_map, kept.lengths, Option.isSome_map]

/-! ## One update -/

/-- A document that keeps its key and is put in its place has an equal key there. -/
theorem Effect.keyAt? {before after : Store} {update : Update} {name : String}
    {documents results : List Json} {selected : List Nat} {outcome : Outcome}
    (effect : Effect before update name documents selected results outcome after)
    (kept : forall position, position ∈ selected ->
      KeepsKey update.operations (documents.getD position .null))
    {position : Nat} {document key : Json} (found : documents[position]? = some document)
    (identified : document.member? keyField = some key) :
    Exists fun newKey => after.keyAt? name position = some newKey ∧ newKey.equal key = true := by
  have placed : forall result, results[position]? = some result ->
      after.keyAt? name position = result.member? keyField := by
    intro result present
    rw [Store.keyAt?, documentAt?, effect.stored, Option.bind_some, present, Option.bind_some]
  by_cases chosen : position ∈ selected
  · cases changes : differs update.operations document with
    | true =>
        have keeps := kept position chosen
        rw [getD_of_getElem? found] at keeps
        rcases keeps key identified with ⟨newKey, newFound, same⟩
        exact ⟨newKey, (placed _ (effect.changed _ _ chosen found changes)).trans newFound, same⟩
    | false =>
        exact ⟨key, (placed _ (effect.unchanged _ _ chosen found changes)).trans identified,
          key.equal_refl⟩
  · exact ⟨key, (placed _ ((effect.unselected _ chosen).trans found)).trans identified,
      key.equal_refl⟩

theorem Effect.keepsIdentity {before after : Store} {update : Update} {name : String}
    {documents results : List Json} {selected : List Nat} {outcome : Outcome}
    (effect : Effect before update name documents selected results outcome after)
    (present : before.documents? name = some documents)
    (kept : forall position, position ∈ selected ->
      KeepsKey update.operations (documents.getD position .null)) :
    KeepsIdentity before after := by
  constructor
  · intro other
    by_cases same : other = name
    · rw [same, effect.stored, present, Option.map_some, Option.map_some, effect.length]
    · rw [effect.others other same]
  · intro other position key found
    by_cases same : other = name
    · subst other
      rw [Store.keyAt?, documentAt?, present, Option.bind_some] at found
      rcases Option.bind_eq_some_iff.mp found with ⟨document, here, identified⟩
      exact effect.keyAt? kept here identified
    · refine ⟨key, ?_, key.equal_refl⟩
      rw [Store.keyAt?, documentAt?, effect.others other same]
      exact found

theorem keepsIdentity_answer (store : Store) (update : Update) :
    KeepsIdentity store (store.answer update).2 := by
  rcases reason_or_effect store update with
    ⟨refusal, reason⟩ | ⟨name, documents, selected, concerned, kept⟩
  · rw [answer_of_reason reason]
    exact .refl store
  · rcases answer_of_keepsKey concerned kept with ⟨results, outcome, after, answered, effect⟩
    rw [answered]
    exact effect.keepsIdentity concerned.found kept

/-! ## Any number of updates -/

/-- The store after updates one after another, of which some may be refused. -/
def afterUpdates (store : Store) (updates : List Update) : Store :=
  updates.foldl (fun store update => (store.answer update).2) store

theorem keepsIdentity_afterUpdates (updates : List Update) :
    forall store : Store, KeepsIdentity store (store.afterUpdates updates) := by
  induction updates with
  | nil => exact KeepsIdentity.refl
  | cons update rest ih =>
      intro store
      exact (keepsIdentity_answer store update).trans (ih (store.answer update).2)

theorem afterUpdates_append (store : Store) (earlier later : List Update) :
    store.afterUpdates (earlier ++ later) = (store.afterUpdates earlier).afterUpdates later :=
  List.foldl_append

/-- At every time a store has the collections that it had in the beginning, each with as many
documents as then, and from any time on at which the document at a position has a key,
the document at that position has an equal one. -/
theorem identity_of_documents (store : Store) (earlier later : List Update) :
    (forall name, (store.afterUpdates (earlier ++ later)).hasCollection name =
      store.hasCollection name) ∧
    (forall name, ((store.afterUpdates (earlier ++ later)).documents? name).map List.length =
      (store.documents? name).map List.length) ∧
    forall name position key, (store.afterUpdates earlier).keyAt? name position = some key ->
      Exists fun kept =>
        (store.afterUpdates (earlier ++ later)).keyAt? name position = some kept ∧
          kept.equal key = true := by
  have fromStart := keepsIdentity_afterUpdates (earlier ++ later) store
  have fromThen := keepsIdentity_afterUpdates later (store.afterUpdates earlier)
  rw [← afterUpdates_append] at fromThen
  exact ⟨fromStart.hasCollection, fromStart.lengths, fromThen.keys⟩

/-- A store with one document, which is a text. -/
def textStore : Store :=
  ⟨[("notes", [.string "x"])]⟩

/-- Make the document an object with a key. -/
def tagText : Update :=
  ⟨some "notes", [.patch [("_key", .string "k")]], [], none, []⟩

/-- Take the key away. -/
def untagText : Update :=
  ⟨some "notes", [.unset ⟨[.field keyField]⟩], [], none, []⟩

/-- Take the key away and put it back, beside another member. -/
def retagText : Update :=
  ⟨some "notes", [.unset ⟨[.field keyField]⟩, .set ⟨[.field keyField]⟩ (.ofString "k"),
    .set ⟨[.field "n"]⟩ (.ofBool true)], [], none, []⟩

/-- The key survives the update that would take it away, which is refused, and the one that
takes it away for a while. -/
theorem identity_of_textStore :
    (textStore.afterUpdates [tagText]).keyAt? "notes" 0 = some (.string "k") ∧
    (textStore.afterUpdates [tagText, untagText, retagText]).documentAt? "notes" 0 =
      some (.object [("_key", .string "k"), ("n", .bool true)]) ∧
    (Exists fun kept =>
      (textStore.afterUpdates ([tagText] ++ [untagText, retagText])).keyAt? "notes" 0 =
        some kept ∧ kept.equal (.string "k") = true) := by
  have tagged : (textStore.afterUpdates [tagText]).keyAt? "notes" 0 = some (.string "k") := by
    cbv
  have last : (textStore.afterUpdates [tagText, untagText, retagText]).documentAt? "notes" 0 =
      some (.object [("_key", .string "k"), ("n", .bool true)]) := by
    cbv
  exact ⟨tagged, last,
    (identity_of_documents textStore [tagText] [untagText, retagText]).2.2 _ _ _ tagged⟩

end Store
end Emend
