import Mathlib
import Emend.Proofs.Json.Members
import Emend.Proofs.Store.Batch
import Emend.Proofs.Store.Selection
import Emend.Proofs.Update.Validity

namespace Emend
namespace Store

/-!
# Updates are all or nothing

An update is answered in one of two ways.  Either there is a reason to refuse
it, the reasons being examined in a fixed order, and the store is what it was.
Or every selected document has its new value and nothing else has changed.

The reasons and the effect are stated here without the loops that find them:
for each document alone, by its value after all operations.
-/

/-! ## Statement -/

/-- An update that passes its own validation concerns the selected documents of
a collection that is there. -/
structure Concerns (store : Store) (update : Update) (name : String) (documents : List Json)
    (selected : List Nat) : Prop where
  valid : update.validate = .ok ()
  named : update.collection = some name
  found : store.documents? name = some documents
  chosen : Exists fun keys => update.sortKeys = .ok keys ∧
    selected = select documents keys update.limit

/-- The reasons to refuse an update.  Each excludes those before it, and among
documents that lose their keys the first selected one counts. -/
inductive Reason (store : Store) (update : Update) : Refusal -> Prop where
  | invalid {fault : Fault} (refused : update.validate = .error fault) :
      Reason store update (.fault fault)
  | unnamed (valid : update.validate = .ok ()) (missing : update.collection = none) :
      Reason store update .noCollection
  | unknown {name : String} (valid : update.validate = .ok ())
      (named : update.collection = some name) (absent : store.documents? name = none) :
      Reason store update (.unknownCollection name)
  | keyLost {name : String} {documents : List Json} {earlier later : List Nat} {position : Nat}
      {key : Json}
      (concerned : Concerns store update name documents (earlier ++ position :: later))
      (kept : forall other, other ∈ earlier ->
        KeepsKey update.operations (documents.getD other .null))
      (lost : ¬ KeepsKey update.operations (documents.getD position .null))
      (identified : (documents.getD position .null).member? keyField = some key) :
      Reason store update (.keyChanged key)

/-- The effect of an update that is carried out, on the store and in what the
caller is told. -/
structure Effect (before : Store) (update : Update) (name : String) (documents : List Json)
    (selected : List Nat) (results : List Json) (outcome : Outcome) (after : Store) : Prop where
  others : forall other, other ≠ name -> after.documents? other = before.documents? other
  stored : after.documents? name = some results
  length : results.length = documents.length
  unselected : forall position, position ∉ selected -> results[position]? = documents[position]?
  changed : forall position document, position ∈ selected ->
    documents[position]? = some document -> differs update.operations document = true ->
    results[position]? = some (afterAll update.operations document)
  unchanged : forall position document, position ∈ selected ->
    documents[position]? = some document -> differs update.operations document = false ->
    results[position]? = some document
  affected : outcome.affected = UInt64.ofNat
    (selected.countP fun position => differs update.operations (documents.getD position .null))
  generatedIds : outcome.generatedIds = []
  warnings : outcome.warnings = selected.flatMap fun position =>
    warningsAbout update.operations position (documents.getD position .null)

/-! ## The batch of a whole selection -/

theorem updateAt_position {operations : List Operation} {documents : List Json}
    {position : Nat} {update : Nat × Json}
    (listed : update ∈ updateAt operations documents position) : update.1 = position := by
  simp only [updateAt] at listed
  split at listed
  · rw [List.mem_singleton.mp listed]
  · cases listed

theorem nodup_positions_of_updates (operations : List Operation) (documents : List Json)
    {selected : List Nat} (distinct : selected.Nodup) :
    ((selected.flatMap (updateAt operations documents)).map Prod.fst).Nodup := by
  induction selected with
  | nil => exact List.nodup_nil
  | cons position rest ih =>
      have parts := List.nodup_cons.mp distinct
      rw [List.flatMap_cons, List.map_append]
      apply List.nodup_append.mpr
      refine ⟨?_, ih parts.2, ?_⟩
      · simp only [updateAt]
        split
        · exact List.nodup_cons.mpr ⟨List.not_mem_nil, List.nodup_nil⟩
        · exact List.nodup_nil
      · intro first listed second other same
        rcases List.mem_map.mp listed with ⟨update, member, equal⟩
        rcases List.mem_map.mp other with ⟨later, memberLater, equalLater⟩
        rcases List.mem_flatMap.mp memberLater with ⟨place, inRest, source⟩
        have here := updateAt_position member
        have there := updateAt_position source
        apply parts.1
        rw [← here, equal, same, ← equalLater, there]
        exact inRest

theorem length_updates (operations : List Operation) (documents : List Json)
    (selected : List Nat) :
    (selected.flatMap (updateAt operations documents)).length =
      selected.countP fun position => differs operations (documents.getD position .null) := by
  induction selected with
  | nil => rfl
  | cons position rest ih =>
      rw [List.flatMap_cons, List.length_append, List.countP_cons, ih]
      cases changed : differs operations (documents.getD position .null) <;>
        simp only [updateAt, changed, Bool.false_eq_true, if_false, if_true, List.length_nil,
          List.length_singleton] <;> omega

theorem getD_of_getElem? {documents : List Json} {position : Nat} {document : Json}
    (found : documents[position]? = some document) :
    documents.getD position .null = document := by
  rw [List.getD_eq_getElem?_getD, found]
  rfl

@[simp]
theorem documents?_addCollection_same (store : Store) (name : String) (documents : List Json) :
    (store.addCollection name documents).documents? name = some documents :=
  Members.get?_insert_same name documents store.collections

theorem documents?_addCollection_of_ne {name other : String} (different : other ≠ name)
    (store : Store) (documents : List Json) :
    (store.addCollection name documents).documents? other = store.documents? other :=
  Members.get?_insert_of_ne different documents store.collections

theorem effect_of_prepared {store : Store} {update : Update} {name : String}
    {documents : List Json} {selected : List Nat}
    (distinct : selected.Nodup) :
    Effect store update name documents selected
      (Batch.commit ⟨selected.flatMap (updateAt update.operations documents),
        warningsOn update.operations documents selected⟩ documents)
      ⟨UInt64.ofNat (selected.flatMap (updateAt update.operations documents)).length, [],
        warningsOn update.operations documents selected⟩
      (store.addCollection name
        (Batch.commit ⟨selected.flatMap (updateAt update.operations documents),
          warningsOn update.operations documents selected⟩ documents)) where
  others other different := documents?_addCollection_of_ne different store _
  stored := documents?_addCollection_same store name _
  length := length_foldl_set _ _
  unselected position absent := by
    apply getElem?_foldl_set_of_ne
    intro written listed same
    rcases List.mem_flatMap.mp listed with ⟨place, inSelected, source⟩
    apply absent
    rw [← same, updateAt_position source]
    exact inSelected
  changed position document chosen present changes := by
    have inRange : position < documents.length := (List.getElem?_eq_some_iff.mp present).1
    apply getElem?_foldl_set_of_mem _ _ inRange (nodup_positions_of_updates _ _ distinct)
    apply List.mem_flatMap.mpr
    refine ⟨position, chosen, ?_⟩
    simp only [updateAt, getD_of_getElem? present, changes, if_true, List.mem_singleton]
  unchanged position document chosen present same := by
    refine Eq.trans (getElem?_foldl_set_of_ne _ _ ?_) present
    intro written listed equal
    rcases List.mem_flatMap.mp listed with ⟨place, inSelected, source⟩
    have here := updateAt_position source
    have samePlace : place = position := here.symm.trans equal
    subst samePlace
    simp only [updateAt, getD_of_getElem? present, same, Bool.false_eq_true, if_false,
      List.not_mem_nil] at source
  affected := by rw [length_updates]
  generatedIds := rfl
  warnings := rfl

/-! ## The answer, reason by reason -/

variable {store : Store} {update : Update}

/-- The sort expressions of a valid update have been found to be readable. -/
theorem sortKeys_of_validate (valid : update.validate = .ok ()) :
    Exists fun keys => update.sortKeys = .ok keys :=
  (update.validate_eq_ok_iff.mp valid).2.2

theorem answer_of_invalid {fault : Fault} (refused : update.validate = .error fault) :
    store.answer update = (.error (.fault fault), store) := by
  rw [answer, apply, refused]
  rfl

/-- Behind validation each step either ends the update, and then the store has
not been touched, or hands on what it found. -/
theorem answer_of_valid {keys : List SortKey} (valid : update.validate = .ok ())
    (read : update.sortKeys = .ok keys) :
    store.answer update =
      match target update with
      | .error refusal => (.error refusal, store)
      | .ok name =>
          match store.require name with
          | .error refusal => (.error refusal, store)
          | .ok documents =>
              match Batch.prepare update.operations documents
                  (select documents keys update.limit) with
              | .error refusal => (.error refusal, store)
              | .ok batch =>
                  (.ok ⟨UInt64.ofNat batch.updates.length, [], batch.warnings⟩,
                    store.addCollection name (batch.commit documents)) := by
  rw [answer, apply, valid, read]
  cases target update with
  | error refusal => rfl
  | ok name =>
      -- The rest of the chain runs in the store that `get` has just read, so the
      -- next result can be examined by itself.
      change ((ofExcept (store.require name) : ExceptT Refusal (StateM Store) _) >>= _).run store =
        match store.require name with | .error _ => _ | .ok _ => _
      cases store.require name with
      | error refusal => rfl
      | ok documents =>
          change ((ofExcept (Batch.prepare update.operations documents
              (select documents keys update.limit)) : ExceptT Refusal (StateM Store) _) >>= _).run
                store =
            match Batch.prepare update.operations documents (select documents keys update.limit) with
            | .error _ => _
            | .ok _ => _
          cases Batch.prepare update.operations documents (select documents keys update.limit) with
          | error refusal => rfl
          | ok batch => rfl

theorem answer_of_unnamed (valid : update.validate = .ok ()) (missing : update.collection = none) :
    store.answer update = (.error .noCollection, store) := by
  rcases sortKeys_of_validate valid with ⟨keys, read⟩
  rw [answer_of_valid valid read, target, missing]

theorem answer_of_unknown {name : String} (valid : update.validate = .ok ())
    (named : update.collection = some name) (absent : store.documents? name = none) :
    store.answer update = (.error (.unknownCollection name), store) := by
  rcases sortKeys_of_validate valid with ⟨keys, read⟩
  rw [answer_of_valid valid read, target, named]
  simp only [require, absent]

theorem answer_of_concerns {name : String} {documents : List Json} {selected : List Nat}
    (concerned : Concerns store update name documents selected) :
    store.answer update =
      match Batch.prepare update.operations documents selected with
      | .error refusal => (.error refusal, store)
      | .ok batch =>
          (.ok ⟨UInt64.ofNat batch.updates.length, [], batch.warnings⟩,
            store.addCollection name (batch.commit documents)) := by
  rcases concerned.chosen with ⟨keys, read, chosen⟩
  subst selected
  rw [answer_of_valid concerned.valid read, target, concerned.named]
  simp only [require, concerned.found]

theorem answer_of_keyLost {name : String} {documents : List Json} {earlier later : List Nat}
    {position : Nat} {key : Json}
    (concerned : Concerns store update name documents (earlier ++ position :: later))
    (kept : forall other, other ∈ earlier ->
      KeepsKey update.operations (documents.getD other .null))
    (lost : ¬ KeepsKey update.operations (documents.getD position .null))
    (identified : (documents.getD position .null).member? keyField = some key) :
    store.answer update = (.error (.keyChanged key), store) := by
  rcases Batch.foldlM_visit_of_not_keepsKey later ⟨[], []⟩ kept lost with
    ⟨other, found, refused⟩
  cases identified.symm.trans found
  rw [answer_of_concerns concerned, Batch.prepare, refused]

theorem Concerns.nodup {name : String} {documents : List Json} {selected : List Nat}
    (concerned : Concerns store update name documents selected) : selected.Nodup := by
  rcases concerned.chosen with ⟨keys, _, chosen⟩
  rw [chosen]
  exact select_nodup documents keys update.limit

theorem Concerns.lt_length {name : String} {documents : List Json} {selected : List Nat}
    (concerned : Concerns store update name documents selected) {position : Nat}
    (listed : position ∈ selected) : position < documents.length := by
  rcases concerned.chosen with ⟨keys, _, chosen⟩
  rw [chosen] at listed
  exact lt_of_mem_select listed

/-- When no key is lost the updates of all selected documents are put in place. -/
theorem answer_of_prepared {name : String} {documents : List Json} {selected : List Nat}
    (concerned : Concerns store update name documents selected)
    (kept : forall position, position ∈ selected ->
      KeepsKey update.operations (documents.getD position .null)) :
    store.answer update =
      (.ok ⟨UInt64.ofNat (selected.flatMap (updateAt update.operations documents)).length, [],
          warningsOn update.operations documents selected⟩,
        store.addCollection name
          (Batch.commit ⟨selected.flatMap (updateAt update.operations documents),
            warningsOn update.operations documents selected⟩ documents)) := by
  have prepared := Batch.foldlM_visit_of_keepsKey selected ⟨[], []⟩ kept
  rw [answer_of_concerns concerned, Batch.prepare, prepared]
  rfl

theorem answer_of_keepsKey {name : String} {documents : List Json} {selected : List Nat}
    (concerned : Concerns store update name documents selected)
    (kept : forall position, position ∈ selected ->
      KeepsKey update.operations (documents.getD position .null)) :
    Exists fun results => Exists fun outcome => Exists fun after =>
      store.answer update = (.ok outcome, after) ∧
        Effect store update name documents selected results outcome after :=
  ⟨_, _, _, answer_of_prepared concerned kept, effect_of_prepared concerned.nodup⟩

theorem answer_of_reason {refusal : Refusal} (reason : Reason store update refusal) :
    store.answer update = (.error refusal, store) := by
  cases reason with
  | invalid refused => exact answer_of_invalid refused
  | unnamed valid missing => exact answer_of_unnamed valid missing
  | unknown valid named absent => exact answer_of_unknown valid named absent
  | keyLost concerned kept lost identified =>
      exact answer_of_keyLost concerned kept lost identified

theorem first_lost (operations : List Operation) (documents : List Json) (selected : List Nat) :
    (forall position, position ∈ selected -> KeepsKey operations (documents.getD position .null)) ∨
      Exists fun earlier => Exists fun position => Exists fun later =>
        selected = earlier ++ position :: later ∧
        (forall other, other ∈ earlier -> KeepsKey operations (documents.getD other .null)) ∧
        ¬ KeepsKey operations (documents.getD position .null) := by
  induction selected with
  | nil =>
      refine Or.inl ?_
      intro position listed
      cases listed
  | cons position rest ih =>
      by_cases here : KeepsKey operations (documents.getD position .null)
      · rcases ih with kept | ⟨earlier, lostAt, later, split, kept, lost⟩
        · exact Or.inl (List.forall_mem_cons.mpr ⟨here, kept⟩)
        · refine Or.inr ⟨position :: earlier, lostAt, later, ?_, ?_, lost⟩
          · rw [split, List.cons_append]
          · exact List.forall_mem_cons.mpr ⟨here, kept⟩
      · refine Or.inr ⟨[], position, rest, rfl, ?_, here⟩
        intro other listed
        cases listed

/-- There is a reason to refuse an update, or it takes effect. -/
theorem reason_or_effect (store : Store) (update : Update) :
    (Exists fun refusal => Reason store update refusal) ∨
      Exists fun name => Exists fun documents => Exists fun selected =>
        Concerns store update name documents selected ∧
        forall position, position ∈ selected ->
          KeepsKey update.operations (documents.getD position .null) := by
  cases valid : update.validate with
  | error fault => exact Or.inl ⟨_, .invalid valid⟩
  | ok _ =>
      cases named : update.collection with
      | none => exact Or.inl ⟨_, .unnamed valid named⟩
      | some name =>
          cases found : store.documents? name with
          | none => exact Or.inl ⟨_, .unknown valid named found⟩
          | some documents =>
              rcases sortKeys_of_validate valid with ⟨keys, read⟩
              have concerned : Concerns store update name documents
                  (select documents keys update.limit) := ⟨valid, named, found, keys, read, rfl⟩
              rcases first_lost update.operations documents
                (select documents keys update.limit) with kept | lostFirst
              · exact Or.inr ⟨name, documents, _, concerned, kept⟩
              · rcases lostFirst with ⟨earlier, position, later, split, kept, lost⟩
                rcases checkKey_afterAll_of_not_keepsKey lost with ⟨key, identified, _⟩
                rw [split] at concerned
                exact Or.inl ⟨_, .keyLost concerned kept lost identified⟩

/-! ## All or nothing -/

/-- An update is refused exactly when there is a reason, the answer tells the
reason and the store is as before; otherwise it takes effect on all selected
documents at once. -/
theorem answer_all_or_nothing (store : Store) (update : Update) :
    (forall refusal, (store.answer update).1 = .error refusal <-> Reason store update refusal) ∧
    (forall refusal, (store.answer update).1 = .error refusal ->
      (store.answer update).2 = store) ∧
    (forall outcome, (store.answer update).1 = .ok outcome ->
      Exists fun name => Exists fun documents => Exists fun selected => Exists fun results =>
        Concerns store update name documents selected ∧
        Effect store update name documents selected results outcome (store.answer update).2) := by
  rcases reason_or_effect store update with ⟨refusal, reason⟩ | ⟨name, documents, selected, rest⟩
  · have answered := answer_of_reason reason
    rw [answered]
    refine ⟨?_, fun _ _ => rfl, ?_⟩
    · intro other
      constructor
      · intro same
        cases same
        exact reason
      · intro otherReason
        exact congrArg Prod.fst (answered.symm.trans (answer_of_reason otherReason))
    · intro outcome impossible
      cases impossible
  · rcases answer_of_keepsKey rest.1 rest.2 with ⟨results, outcome, after, answered, effect⟩
    refine ⟨?_, ?_, ?_⟩
    · intro refusal
      constructor
      · intro impossible
        rw [answered] at impossible
        cases impossible
      · intro reason
        exact congrArg Prod.fst (answer_of_reason reason)
    · intro refusal impossible
      rw [answered] at impossible
      cases impossible
    · intro told same
      rw [answered] at same
      cases same
      rw [answered]
      exact ⟨name, documents, selected, results, rest.1, effect⟩

/-- Two documents, of which only the second has a key. -/
def halfKeyed : Store :=
  ⟨[("people", [.object [], .object [("_key", .string "k")]])]⟩

/-- An update that gives the first documents up to a limit one and the same
key. -/
def giveKey (limit : Option UInt64) : Update :=
  ⟨some "people", [.set ⟨[.field keyField]⟩ (.ofString "x")], [], limit, []⟩

/-- Without a limit the second document refuses the key, and so the first does
not get it either.  Limited to the first document the update takes effect. -/
theorem answer_giveKey_halfKeyed :
    (halfKeyed.answer (giveKey none)).1 = .error (.keyChanged (.string "k")) ∧
    (halfKeyed.answer (giveKey none)).2 = halfKeyed ∧
    (halfKeyed.answer (giveKey (some 1))).1 = .ok ⟨1, [], []⟩ ∧
    (Exists fun name => Exists fun documents => Exists fun selected => Exists fun results =>
      Concerns halfKeyed (giveKey (some 1)) name documents selected ∧
      Effect halfKeyed (giveKey (some 1)) name documents selected results ⟨1, [], []⟩
        (halfKeyed.answer (giveKey (some 1))).2) := by
  have refused : (halfKeyed.answer (giveKey none)).1 = .error (.keyChanged (.string "k")) := by
    cbv
  have accepted : (halfKeyed.answer (giveKey (some 1))).1 = .ok ⟨1, [], []⟩ := by
    cbv
  exact ⟨refused, (answer_all_or_nothing halfKeyed (giveKey none)).2.1 _ refused, accepted,
    (answer_all_or_nothing halfKeyed (giveKey (some 1))).2.2 _ accepted⟩

end Store
end Emend
