import Emend.Store

namespace Emend
namespace Store

/-!
# What a batch prepares

The store prepares a batch in a loop over positions, with a loop over
operations inside and a way out in the middle.  Here the two loops are replaced
by what they compute for each document alone: its value after all operations,
the operations that miss it, and whether it keeps its key.
-/

/-! ## One document -/

/-- A document after operations, one after another. -/
def afterAll (operations : List Operation) (document : Json) : Json :=
  operations.foldl (fun document operation => operation.apply document) document

/-- The operations, with their numbers, that miss their target when their turn
comes. -/
def misses (operations : List Operation) (document : Json) : List (Operation × Nat) :=
  operations.zipIdx.filter fun numbered =>
    !numbered.1.hits (afterAll (operations.take numbered.2) document)

/-- The warnings about the document at a position. -/
def warningsAbout (operations : List Operation) (position : Nat) (document : Json) : List String :=
  (misses operations document).map fun numbered =>
    "operation #" ++ toString numbered.2 ++ " (" ++ numbered.1.kind.name ++
      ") had no target in document " ++ toString position

/-- Whether operations give a document another value. -/
def differs (operations : List Operation) (document : Json) : Bool :=
  !(afterAll operations document).equal document

/-- A document that has a key has an equal one after operations. -/
def KeepsKey (operations : List Operation) (document : Json) : Prop :=
  forall key, document.member? keyField = some key ->
    Exists fun newKey => (afterAll operations document).member? keyField = some newKey ∧
      newKey.equal key = true

theorem afterAll_append (first second : List Operation) (document : Json) :
    afterAll (first ++ second) document = afterAll second (afterAll first document) :=
  List.foldl_append

theorem Work.step_eq (position : Nat) (work : Work) (operation : Operation) (index : Nat) :
    work.step position (operation, index) =
      ⟨operation.apply work.document,
        if operation.hits work.document then work.warnings
        else work.warnings ++ [missWarning index operation.kind position]⟩ := by
  cases effect : operation.effect? work.document <;>
    simp only [Work.step, Operation.apply, Operation.hits, effect, Option.getD, Option.isSome,
      if_true, Bool.false_eq_true, if_false]

/-- The inner loop from any operation on.  The operations already carried out
stand in front, because a miss depends on what they left. -/
theorem Work.foldl_step (position : Nat) (document : Json) (rest : List Operation) :
    forall (done : List Operation) (warnings : List String),
      (rest.zipIdx done.length).foldl (Work.step position) ⟨afterAll done document, warnings⟩ =
        ⟨afterAll (done ++ rest) document,
          warnings ++ ((rest.zipIdx done.length).filter fun numbered =>
              !numbered.1.hits (afterAll ((done ++ rest).take numbered.2) document)).map
            fun numbered => missWarning numbered.2 numbered.1.kind position⟩ := by
  induction rest with
  | nil =>
      intro done warnings
      simp only [List.zipIdx_nil, List.foldl_nil, List.filter_nil, List.map_nil, List.append_nil]
  | cons operation rest ih =>
      intro done warnings
      have next : afterAll (done ++ [operation]) document =
          operation.apply (afterAll done document) := afterAll_append done [operation] document
      have split : done ++ operation :: rest = (done ++ [operation]) ++ rest := by
        rw [List.append_assoc, List.singleton_append]
      have count : done.length + 1 = (done ++ [operation]).length := by
        rw [List.length_append, List.length_singleton]
      rw [List.zipIdx_cons, List.foldl_cons, Work.step_eq, List.filter_cons, List.take_left]
      rw [← next, split, count, ih (done ++ [operation])]
      cases operation.hits (afterAll done document) <;>
        simp only [Bool.not_false, Bool.not_true, if_true, Bool.false_eq_true, if_false,
          List.map_cons, List.append_assoc, List.singleton_append]

theorem Work.run_eq (operations : List Operation) (position : Nat) (document : Json)
    (warnings : List String) :
    Work.run operations position ⟨document, warnings⟩ =
      ⟨afterAll operations document, warnings ++ warningsAbout operations position document⟩ :=
  Work.foldl_step position document operations [] warnings

theorem checkKey_afterAll_of_keepsKey {operations : List Operation} {document : Json}
    (kept : KeepsKey operations document) :
    checkKey document (afterAll operations document) = .ok () := by
  cases found : document.member? keyField with
  | none => simp only [checkKey, found]
  | some key =>
      rcases kept key found with ⟨newKey, newFound, same⟩
      simp only [checkKey, found, newFound, same, if_true]

theorem checkKey_afterAll_of_not_keepsKey {operations : List Operation} {document : Json}
    (lost : ¬ KeepsKey operations document) :
    Exists fun key => document.member? keyField = some key ∧
      checkKey document (afterAll operations document) = .error (.keyChanged key) := by
  cases found : document.member? keyField with
  | none =>
      refine False.elim (lost ?_)
      intro key present
      rw [found] at present
      cases present
  | some key =>
      refine ⟨key, rfl, ?_⟩
      cases newFound : (afterAll operations document).member? keyField with
      | none => simp only [checkKey, found, newFound]
      | some newKey =>
          cases same : newKey.equal key with
          | false => simp only [checkKey, found, newFound, same, Bool.false_eq_true, if_false]
          | true =>
              refine False.elim (lost ?_)
              intro other present
              cases found.symm.trans present
              exact ⟨newKey, newFound, same⟩

/-! ## The selected documents -/

/-- The update that the document at a position gives rise to, if any. -/
def updateAt (operations : List Operation) (documents : List Json) (position : Nat) :
    List (Nat × Json) :=
  let document := documents.getD position .null
  if differs operations document then [(position, afterAll operations document)] else []

/-- The warnings about the selected documents, in the order of selection. -/
def warningsOn (operations : List Operation) (documents : List Json) (selected : List Nat) :
    List String :=
  selected.flatMap fun position =>
    warningsAbout operations position (documents.getD position .null)

variable {operations : List Operation} {documents : List Json}

theorem Batch.visit_of_keepsKey {position : Nat}
    (kept : KeepsKey operations (documents.getD position .null)) (batch : Batch) :
    batch.visit operations documents position =
      .ok ⟨batch.updates ++ updateAt operations documents position,
        batch.warnings ++ warningsOn operations documents [position]⟩ := by
  simp only [Batch.visit, Work.run_eq, checkKey_afterAll_of_keepsKey kept, updateAt, differs,
    warningsOn, List.flatMap_cons, List.flatMap_nil, List.append_nil]
  by_cases same : (afterAll operations (documents.getD position .null)).equal
      (documents.getD position .null) = true
  · simp only [same, if_true, Bool.not_true, Bool.false_eq_true, if_false, List.append_nil]
    rfl
  · simp only [same, if_true, Bool.not_false, Bool.false_eq_true, if_false]
    rfl

theorem Batch.visit_of_not_keepsKey {position : Nat}
    (lost : ¬ KeepsKey operations (documents.getD position .null)) (batch : Batch) :
    Exists fun key => (documents.getD position .null).member? keyField = some key ∧
      batch.visit operations documents position = .error (.keyChanged key) := by
  rcases checkKey_afterAll_of_not_keepsKey lost with ⟨key, found, refused⟩
  refine ⟨key, found, ?_⟩
  simp only [Batch.visit, Work.run_eq, refused]
  rfl

/-- The outer loop over documents that all keep their keys. -/
theorem Batch.foldlM_visit_of_keepsKey (selected : List Nat) :
    forall batch : Batch,
      (forall position, position ∈ selected ->
        KeepsKey operations (documents.getD position .null)) ->
      selected.foldlM (Batch.visit operations documents) batch =
        .ok ⟨batch.updates ++ selected.flatMap (updateAt operations documents),
          batch.warnings ++ warningsOn operations documents selected⟩ := by
  induction selected with
  | nil =>
      intro batch kept
      simp only [List.foldlM_nil, warningsOn, List.flatMap_nil, List.append_nil]
      rfl
  | cons position rest ih =>
      intro batch kept
      have first := Batch.visit_of_keepsKey (kept position List.mem_cons_self) batch
      have later := ih
        ⟨batch.updates ++ updateAt operations documents position,
          batch.warnings ++ warningsOn operations documents [position]⟩
        (fun other listed => kept other (List.mem_cons_of_mem _ listed))
      rw [List.foldlM_cons, first]
      refine later.trans ?_
      simp only [warningsOn, List.flatMap_cons, List.flatMap_nil, List.append_nil,
        List.append_assoc]

/-- The outer loop stops at the first document that loses its key, whatever has
been prepared before. -/
theorem Batch.foldlM_visit_of_not_keepsKey {earlier : List Nat} {position : Nat}
    (later : List Nat) (batch : Batch)
    (kept : forall other, other ∈ earlier -> KeepsKey operations (documents.getD other .null))
    (lost : ¬ KeepsKey operations (documents.getD position .null)) :
    Exists fun key => (documents.getD position .null).member? keyField = some key ∧
      (earlier ++ position :: later).foldlM (Batch.visit operations documents) batch =
        .error (.keyChanged key) := by
  rcases Batch.visit_of_not_keepsKey lost
    ⟨batch.updates ++ earlier.flatMap (updateAt operations documents),
      batch.warnings ++ warningsOn operations documents earlier⟩ with ⟨key, found, refused⟩
  refine ⟨key, found, ?_⟩
  rw [List.foldlM_append, Batch.foldlM_visit_of_keepsKey earlier batch kept]
  change (position :: later).foldlM (Batch.visit operations documents) _ = _
  rw [List.foldlM_cons, refused]
  rfl

/-! ## Putting the new documents in place -/

theorem length_foldl_set (updates : List (Nat × Json)) :
    forall documents : List Json,
      (updates.foldl (fun documents update => documents.set update.1 update.2) documents).length =
        documents.length := by
  induction updates with
  | nil => exact fun documents => rfl
  | cons update rest ih =>
      intro documents
      rw [List.foldl_cons, ih, List.length_set]

theorem getElem?_foldl_set_of_ne {position : Nat} (updates : List (Nat × Json)) :
    forall documents : List Json,
      (forall update, update ∈ updates -> update.1 ≠ position) ->
      (updates.foldl (fun documents update => documents.set update.1 update.2)
        documents)[position]? = documents[position]? := by
  induction updates with
  | nil => exact fun documents _ => rfl
  | cons update rest ih =>
      intro documents elsewhere
      rw [List.foldl_cons, ih _ fun other listed => elsewhere other (List.mem_cons_of_mem _ listed)]
      exact List.getElem?_set_ne (elsewhere update List.mem_cons_self)

/-- With one update for each position at most, the order of the updates does
not matter. -/
theorem getElem?_foldl_set_of_mem {position : Nat} {document : Json}
    (updates : List (Nat × Json)) :
    forall documents : List Json, position < documents.length ->
      (updates.map Prod.fst).Nodup -> (position, document) ∈ updates ->
      (updates.foldl (fun documents update => documents.set update.1 update.2)
        documents)[position]? = some document := by
  induction updates with
  | nil =>
      intro documents inRange distinct listed
      cases listed
  | cons update rest ih =>
      intro documents inRange distinct listed
      have parts := List.nodup_cons.mp distinct
      rw [List.foldl_cons]
      rcases List.mem_cons.mp listed with same | later
      · subst update
        rw [getElem?_foldl_set_of_ne rest]
        · rw [List.getElem?_set_self inRange]
        · intro other otherListed same
          exact parts.1 (List.mem_map.mpr ⟨other, otherListed, same⟩)
      · exact ih _ (by rw [List.length_set]; exact inRange) parts.2 later

end Store
end Emend
