import Mathlib
import Emend.Proofs.Store.Updated

namespace Emend

/-!
# Sort expressions without a limit

Sort expressions choose documents only together with a limit.  When no document is cut off
they decide nothing but the order in which the documents are visited.  What an update makes
of a document does not depend on the documents visited before, so the order can be told from
the warnings at most: they come in the order of the visits.

Two updates that differ in their sort expressions are compared here on one store.  When the
first one succeeds the second one succeeds with the same effect, and as the updates may be
exchanged they fail together too, though not always for the key of the same document.
-/

/-- Two updates that do the same to the same collection up to the same limit.  Their sort
expressions may differ. -/
structure Update.SortedOtherwise (first second : Update) : Prop where
  collection : first.collection = second.collection
  operations : first.operations = second.operations
  limit : first.limit = second.limit

theorem Update.SortedOtherwise.symm {first second : Update}
    (otherwise : first.SortedOtherwise second) : second.SortedOtherwise first :=
  ⟨otherwise.collection.symm, otherwise.operations.symm, otherwise.limit.symm⟩

namespace Store

/-- No document of the collection is cut off by the limit of an update. -/
def CutsNothing (store : Store) (update : Update) : Prop :=
  forall rows name documents, update.limit = some rows -> update.collection = some name ->
    store.documents? name = some documents -> documents.length ≤ rows.toNat

variable {store : Store} {first second : Update}

theorem CutsNothing.sortedOtherwise (otherwise : first.SortedOtherwise second)
    (whole : store.CutsNothing first) : store.CutsNothing second := by
  intro rows name documents limited named
  rw [← otherwise.limit] at limited
  rw [← otherwise.collection] at named
  exact whole rows name documents limited named

/-- Both updates concern all documents of the collection. -/
theorem Concerns.sortedOtherwise {name : String} {documents : List Json} {selected : List Nat}
    (concerned : Concerns store first name documents selected)
    (otherwise : first.SortedOtherwise second) (whole : store.CutsNothing first)
    (valid : second.validate = .ok ()) :
    Exists fun others => Concerns store second name documents others ∧ selected.Perm others := by
  have named : second.collection = some name := otherwise.collection.symm.trans concerned.named
  rcases sortKeys_of_validate valid with ⟨keys, read⟩
  rcases concerned.chosen with ⟨firstKeys, _, rfl⟩
  have spare : forall rows, first.limit = some rows -> documents.length ≤ rows.toNat :=
    fun rows limited => whole rows name documents limited concerned.named concerned.found
  refine ⟨select documents keys second.limit, ⟨valid, named, concerned.found, keys, read, rfl⟩, ?_⟩
  rw [← otherwise.limit]
  exact (select_perm_range spare firstKeys).trans (select_perm_range spare keys).symm

/-- What an update does in one order of the documents the other one does in another order. -/
theorem exists_answer_of_sortedOtherwise (otherwise : first.SortedOtherwise second)
    (whole : store.CutsNothing first) (valid : second.validate = .ok ()) {outcome : Outcome}
    (succeeded : (store.answer first).1 = .ok outcome) :
    Exists fun other => store.answer second = (.ok other, (store.answer first).2) ∧
      outcome.affected = other.affected ∧ outcome.generatedIds = other.generatedIds ∧
      outcome.warnings.Perm other.warnings := by
  rcases concerns_of_answer_ok succeeded with ⟨name, documents, selected, concerned, kept⟩
  rcases concerned.sortedOtherwise otherwise whole valid with ⟨others, otherConcerned, reordered⟩
  have otherKept : forall position, position ∈ others ->
      KeepsKey second.operations (documents.getD position .null) := by
    intro position chosen
    rw [← otherwise.operations]
    exact kept position (reordered.mem_iff.mpr chosen)
  have answered := answer_of_kept concerned kept
  have otherAnswered := answer_of_kept otherConcerned otherKept
  have sameDocuments : updated first.operations selected documents =
      updated second.operations others documents := by
    rw [otherwise.operations]
    exact updated_congr second.operations (fun _ => reordered.mem_iff) documents
  rw [answered] at succeeded ⊢
  cases succeeded
  refine ⟨_, otherAnswered.trans (congrArg (fun documents => (_, store.addCollection name documents))
    sameDocuments.symm), ?_, rfl, ?_⟩
  · rw [otherwise.operations, reordered.countP_eq]
  · rw [otherwise.operations]
    exact reordered.flatMap_right _

/-- Valid updates that differ in their sort expressions, with no limit or none that has an
effect, succeed both or fail both, and they leave the same store.  When they succeed they
have changed as many documents and give the same warnings, up to their order. -/
theorem answer_of_sortedOtherwise (otherwise : first.SortedOtherwise second)
    (whole : store.CutsNothing first) (firstValid : first.validate = .ok ())
    (secondValid : second.validate = .ok ()) :
    ((Exists fun outcome => (store.answer first).1 = .ok outcome) <->
      Exists fun outcome => (store.answer second).1 = .ok outcome) ∧
    (store.answer first).2 = (store.answer second).2 ∧
    forall outcome other, (store.answer first).1 = .ok outcome ->
      (store.answer second).1 = .ok other ->
      outcome.affected = other.affected ∧ outcome.generatedIds = other.generatedIds ∧
        outcome.warnings.Perm other.warnings := by
  have forwards := @exists_answer_of_sortedOtherwise store first second otherwise whole secondValid
  have backwards := @exists_answer_of_sortedOtherwise store second first otherwise.symm
    (whole.sortedOtherwise otherwise) firstValid
  refine ⟨⟨?_, ?_⟩, ?_, ?_⟩
  · rintro ⟨outcome, succeeded⟩
    rcases forwards succeeded with ⟨other, answered, _⟩
    exact ⟨other, congrArg Prod.fst answered⟩
  · rintro ⟨outcome, succeeded⟩
    rcases backwards succeeded with ⟨other, answered, _⟩
    exact ⟨other, congrArg Prod.fst answered⟩
  · cases result : (store.answer first).1 with
    | ok outcome =>
        rcases forwards result with ⟨other, answered, _⟩
        exact (congrArg Prod.snd answered).symm
    | error refusal =>
        have failed : forall outcome, (store.answer second).1 ≠ .ok outcome := by
          intro outcome succeeded
          rcases backwards succeeded with ⟨other, answered, _⟩
          cases result.symm.trans (congrArg Prod.fst answered)
        have failedToo : forall outcome, (store.answer first).1 ≠ .ok outcome := by
          intro outcome succeeded
          cases result.symm.trans succeeded
        rw [answer_of_no_outcome failedToo, answer_of_no_outcome failed]
  · intro outcome other succeeded otherSucceeded
    rcases forwards succeeded with ⟨told, answered, same⟩
    cases otherSucceeded.symm.trans (congrArg Prod.fst answered)
    exact same

/-- Two documents with names. -/
def twoNamed : Store :=
  ⟨[("c", [.object [("n", .string "a")], .object [("n", .string "b")]])]⟩

/-- Give all documents up to a limit of two a member, and try to remove one that they do not
have. -/
def mark (sort : List String) : Update :=
  ⟨some "c", [.set ⟨[.field "x"]⟩ (.ofBool true), .unset ⟨[.field "y"]⟩], sort, some 2, []⟩

/-- The documents are visited in one order and in the other one. -/
theorem answer_mark_twoNamed :
    (mark []).SortedOtherwise (mark ["n DESC"]) ∧ twoNamed.CutsNothing (mark []) ∧
    (mark []).validate = .ok () ∧ (mark ["n DESC"]).validate = .ok () ∧
    (twoNamed.answer (mark [])).1 =
      .ok ⟨2, [], ["operation #1 (unset) had no target in document 0",
        "operation #1 (unset) had no target in document 1"]⟩ ∧
    (twoNamed.answer (mark ["n DESC"])).1 =
      .ok ⟨2, [], ["operation #1 (unset) had no target in document 1",
        "operation #1 (unset) had no target in document 0"]⟩ ∧
    (twoNamed.answer (mark [])).2 = (twoNamed.answer (mark ["n DESC"])).2 := by
  have otherwise : (mark []).SortedOtherwise (mark ["n DESC"]) := ⟨rfl, rfl, rfl⟩
  have whole : twoNamed.CutsNothing (mark []) := by
    intro rows name documents limited named found
    cases limited
    cases named
    cases found
    decide
  have firstValid : (mark []).validate = .ok () := by
    cbv
  have secondValid : (mark ["n DESC"]).validate = .ok () := by
    cbv
  have first : (twoNamed.answer (mark [])).1 =
      .ok ⟨2, [], ["operation #1 (unset) had no target in document 0",
        "operation #1 (unset) had no target in document 1"]⟩ := by
    cbv
  have second : (twoNamed.answer (mark ["n DESC"])).1 =
      .ok ⟨2, [], ["operation #1 (unset) had no target in document 1",
        "operation #1 (unset) had no target in document 0"]⟩ := by
    cbv
  exact ⟨otherwise, whole, firstValid, secondValid, first, second,
    (answer_of_sortedOtherwise otherwise whole firstValid secondValid).2.1⟩

end Store
end Emend
