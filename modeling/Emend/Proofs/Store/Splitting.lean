import Mathlib
import Emend.Proofs.Operation.Equality
import Emend.Proofs.Store.Updated

namespace Emend

/-!
# Updates in two parts

The operations of an update may be carried out by two updates, one after the other.  In
between the documents are put in place, their keys are examined, and a document that has
come out equal to the one before is left as it was.  None of this matters in the end, as long
as both updates concern the same documents: then the whole update succeeds where the two do,
and it leaves equal documents.

They need not be the same documents.  What is left in place of an equal value may differ from
it in the sign of a zero, and the rest of the operations moves it about as it is.
-/

/-! ## Validity of the parts -/

namespace Update

/-- An update that does what two updates do one after the other, to the documents that each
of the two chooses in the same way. -/
structure Joins (whole first second : Update) : Prop where
  operations : whole.operations = first.operations ++ second.operations
  firstCollection : first.collection = whole.collection
  firstSort : first.sort = whole.sort
  firstLimit : first.limit = whole.limit
  secondCollection : second.collection = whole.collection
  secondSort : second.sort = whole.sort
  secondLimit : second.limit = whole.limit

theorem Joins.validate {whole first second : Update} (joins : whole.Joins first second)
    (firstValid : first.validate = .ok ()) (secondValid : second.validate = .ok ()) :
    whole.validate = .ok () := by
  rcases first.validate_eq_ok_iff.mp firstValid with ⟨present, firstChecked, keys, read⟩
  rcases second.validate_eq_ok_iff.mp secondValid with ⟨_, secondChecked, _⟩
  apply whole.validate_eq_ok_iff.mpr
  rw [joins.operations]
  refine ⟨List.append_ne_nil_of_left_ne_nil present _, ?_, keys, ?_⟩
  · intro operation listed
    rcases List.mem_append.mp listed with early | late
    · exact firstChecked operation early
    · exact secondChecked operation late
  · rw [sortKeys, ← joins.firstSort]
    exact read

end Update

namespace Store

/-! ## One document -/

variable {left right document : Json} {early late : List Operation}

theorem afterAll_of_equal (operations : List Operation) :
    forall {left right : Json}, left.representative = right.representative ->
      (afterAll operations left).representative = (afterAll operations right).representative := by
  induction operations with
  | nil => exact fun same => same
  | cons operation rest ih => exact fun same => ih (Operation.apply_of_equal same operation)

theorem misses_of_equal (same : left.representative = right.representative)
    (operations : List Operation) : misses operations left = misses operations right := by
  apply List.filter_congr
  intro numbered _
  rw [Operation.hits_of_equal (afterAll_of_equal _ same)]

/-- Leaving an equal document in place makes no difference to what equality can tell. -/
theorem representative_settled (operations : List Operation) (document : Json) :
    (settled operations document).representative =
      (afterAll operations document).representative := by
  rw [settled]
  cases changes : differs operations document with
  | true => rfl
  | false =>
      rw [differs, Bool.not_eq_false'] at changes
      exact ((Json.equal_iff _ _).mp changes).symm

/-- The second part of the operations, carried out after the first one or on what that has
left in place. -/
theorem representative_afterAll_append (early late : List Operation) (document : Json) :
    (afterAll (early ++ late) document).representative =
      (afterAll late (settled early document)).representative := by
  rw [afterAll_append]
  exact afterAll_of_equal late (representative_settled early document).symm

/-- The operations that miss are those of the first part and those that miss behind it. -/
theorem length_misses_append (early late : List Operation) (document : Json) :
    (misses (early ++ late) document).length =
      (misses early document).length + (misses late (settled early document)).length := by
  have front : early.zipIdx.filter (fun numbered =>
        !numbered.1.hits (afterAll ((early ++ late).take numbered.2) document)) =
      misses early document := by
    apply List.filter_congr
    intro numbered listed
    have inRange : numbered.2 ≤ early.length := Nat.le_of_lt (List.snd_lt_of_mem_zipIdx listed)
    rw [List.take_append_of_le_length inRange]
  have behind : ((late.zipIdx early.length).filter fun numbered =>
        !numbered.1.hits (afterAll ((early ++ late).take numbered.2) document)).length =
      (misses late (afterAll early document)).length := by
    rw [List.zipIdx_eq_map_add, List.filter_map, List.length_map]
    apply congrArg
    apply List.filter_congr
    intro numbered _
    simp only [Function.comp_apply, List.take_length_add_append, afterAll_append]
  rw [misses_of_equal (representative_settled early document) late, ← behind, ← front, misses,
    List.zipIdx_append, List.filter_append, List.length_append, Nat.zero_add]

theorem KeepsKey.append (kept : KeepsKey early document)
    (keptThen : KeepsKey late (settled early document)) : KeepsKey (early ++ late) document := by
  intro key identified
  have between : Exists fun inPlace => (settled early document).member? keyField = some inPlace ∧
      inPlace.equal key = true := by
    rw [settled]
    cases differs early document with
    | true => exact kept key identified
    | false => exact ⟨key, identified, (Json.equal_iff key key).mpr rfl⟩
  rcases between with ⟨inPlace, there, sameThere⟩
  rcases keptThen inPlace there with ⟨last, found, sameFound⟩
  have members := congrArg (Json.member? · keyField)
    (representative_afterAll_append early late document)
  simp only [Json.member?_representative, found, Option.map_some] at members
  rcases Option.map_eq_some_iff.mp members with ⟨new, present, sameNew⟩
  refine ⟨new, present, ?_⟩
  rw [Json.equal_iff] at sameThere sameFound ⊢
  exact sameNew.trans (sameFound.trans sameThere)

/-! ## The documents of a collection -/

variable {documents : List Json} {selected : List Nat}

theorem equalItems_updated_append (early late : List Operation) (selected : List Nat)
    (documents : List Json) :
    Json.equalItems (updated (early ++ late) selected documents)
      (updated late selected (updated early selected documents)) = true := by
  rw [Json.equalItems_iff, Json.representativeItems_eq_map, Json.representativeItems_eq_map]
  apply List.ext_getElem?
  intro position
  simp only [List.getElem?_map, getElem?_updated, Option.map_map]
  apply congrFun
  apply congrArg
  funext document
  by_cases chosen : position ∈ selected
  · simp only [Function.comp_apply, chosen, if_true, representative_settled,
      representative_afterAll_append]
  · simp only [Function.comp_apply, chosen, if_false]

theorem length_warningsOn (operations : List Operation) (documents : List Json)
    (selected : List Nat) :
    (warningsOn operations documents selected).length =
      (selected.map fun position =>
        (misses operations (documents.getD position .null)).length).sum := by
  rw [warningsOn, List.length_flatMap]
  simp only [warningsAbout, List.length_map]

theorem length_warningsOn_append (early late : List Operation)
    (inRange : forall position, position ∈ selected -> position < documents.length) :
    (warningsOn (early ++ late) documents selected).length =
      (warningsOn early documents selected).length +
        (warningsOn late (updated early selected documents) selected).length := by
  rw [length_warningsOn, length_warningsOn, length_warningsOn, ← List.sum_map_add]
  apply congrArg
  apply List.map_congr_left
  intro position chosen
  rw [length_misses_append, getD_updated_of_mem chosen (inRange position chosen)]

/-! ## Stores -/

/-- Two stores have the same collections, with equal documents in the same places. -/
def EqualDocuments (left right : Store) : Prop :=
  forall name, Option.Rel (fun lefts rights => Json.equalItems lefts rights = true)
    (left.documents? name) (right.documents? name)

theorem equalDocuments_addCollection (store : Store) (name : String) {lefts between rights : List Json}
    (same : Json.equalItems lefts rights = true) :
    EqualDocuments (store.addCollection name lefts)
      ((store.addCollection name between).addCollection name rights) := by
  intro other
  by_cases here : other = name
  · subst other
    simp only [documents?, addCollection, Members.get?_insert_same]
    exact .some same
  · simp only [documents?, addCollection, Members.get?_insert_of_ne here]
    cases Members.get? store.collections other with
    | none => exact .none
    | some documents => exact .some ((Json.equalItems_iff documents documents).mpr rfl)

variable {store : Store} {whole first second : Update} {name : String}

theorem Concerns.of_joins (concerned : Concerns store first name documents selected)
    (joins : whole.Joins first second) (secondValid : second.validate = .ok ()) :
    Concerns store whole name documents selected := by
  rcases concerned.chosen with ⟨keys, read, chosen⟩
  rw [joins.firstLimit] at chosen
  refine ⟨joins.validate concerned.valid secondValid, ?_, concerned.found, keys, ?_, chosen⟩
  · exact joins.firstCollection.symm.trans concerned.named
  · rw [Update.sortKeys, ← joins.firstSort]
    exact read

/-- The second part concerns what the first part has left of the same documents. -/
theorem Concerns.perm_of_joins {left : Store} {laterName : String} {results laterDocuments : List Json}
    {later : List Nat} (concerned : Concerns store first name documents selected)
    (laterConcerned : Concerns (left.addCollection name results) second laterName laterDocuments later)
    (joins : whole.Joins first second) (steady : whole.sort = [] ∨ whole.limit = none)
    (lengths : results.length = documents.length) :
    laterName = name ∧ laterDocuments = results ∧ later.Perm selected := by
  have sameName : laterName = name := by
    have named := joins.secondCollection.trans (joins.firstCollection.symm.trans concerned.named)
    exact Option.some.inj (laterConcerned.named.symm.trans named)
  subst laterName
  have sameDocuments : laterDocuments = results := by
    have found := laterConcerned.found
    rw [documents?_addCollection_same] at found
    exact (Option.some.inj found).symm
  subst laterDocuments
  refine ⟨rfl, rfl, ?_⟩
  rcases concerned.chosen with ⟨keys, read, rfl⟩
  rcases laterConcerned.chosen with ⟨laterKeys, laterRead, rfl⟩
  have sameKeys : laterKeys = keys := by
    rw [Update.sortKeys, joins.secondSort, ← joins.firstSort] at laterRead
    exact Except.ok.inj (laterRead.symm.trans read)
  subst laterKeys
  rw [joins.firstLimit, joins.secondLimit]
  refine select_perm_of_length (steady.imp_left ?_) lengths
  intro unsorted
  rw [Update.sortKeys, joins.firstSort, unsorted] at read
  exact (Except.ok.inj read).symm

/-- Where the two parts of an update succeed one after the other, the whole update succeeds.
It leaves equal documents, and it gives as many warnings as the parts together. -/
theorem answer_of_joins (joins : whole.Joins first second)
    (steady : whole.sort = [] ∨ whole.limit = none) {firstOutcome secondOutcome : Outcome}
    (firstDone : (store.answer first).1 = .ok firstOutcome)
    (secondDone : ((store.answer first).2.answer second).1 = .ok secondOutcome) :
    Exists fun outcome => (store.answer whole).1 = .ok outcome ∧
      EqualDocuments (store.answer whole).2 ((store.answer first).2.answer second).2 ∧
      outcome.warnings.length =
        firstOutcome.warnings.length + secondOutcome.warnings.length := by
  rcases concerns_of_answer_ok firstDone with ⟨name, documents, selected, concerned, kept⟩
  have answered := answer_of_kept concerned kept
  rw [answered] at firstDone secondDone ⊢
  rcases concerns_of_answer_ok secondDone with
    ⟨laterName, laterDocuments, later, laterConcerned, laterKept⟩
  have laterAnswered := answer_of_kept laterConcerned laterKept
  rw [laterAnswered] at secondDone ⊢
  rcases concerned.perm_of_joins laterConcerned joins steady (length_updated _ _ _) with
    ⟨rfl, rfl, reordered⟩
  have inRange : forall position, position ∈ selected -> position < documents.length :=
    fun _ => concerned.lt_length
  have wholeKept : forall position, position ∈ selected ->
      KeepsKey whole.operations (documents.getD position .null) := by
    intro position chosen
    have keptThen := laterKept position (reordered.mem_iff.mpr chosen)
    rw [getD_updated_of_mem chosen (inRange position chosen)] at keptThen
    rw [joins.operations]
    exact (kept position chosen).append keptThen
  have wholeAnswered := answer_of_kept (concerned.of_joins joins laterConcerned.valid) wholeKept
  cases firstDone
  cases secondDone
  rw [wholeAnswered, joins.operations]
  refine ⟨_, rfl, ?_, ?_⟩
  · rw [updated_congr second.operations fun _ => reordered.mem_iff]
    exact equalDocuments_addCollection store laterName (equalItems_updated_append _ _ _ _)
  · have sameCount := (reordered.flatMap_right fun position => warningsAbout second.operations position
      ((updated first.operations selected documents).getD position .null)).length_eq
    exact (length_warningsOn_append _ _ inRange).trans (congrArg _ sameCount.symm)

/-- The zero of binary64 with a sign. -/
def zero (negative : Bool) : Json :=
  .number (.float ⟨negative, 0, by decide⟩)

/-- Two documents, of which the first holds the negative zero. -/
def signedZero : Store :=
  ⟨[("c", [.object [("a", zero true)], .object []])]⟩

/-- Operations on the first document of the collection. -/
def onFirst (operations : List Operation) : Update :=
  ⟨some "c", operations, [], some 1, []⟩

/-- Write the positive zero, and miss. -/
def loseSign : List Operation :=
  [.set ⟨[.field "a"]⟩ (.present (zero false)), .unset ⟨[.field "b"]⟩]

/-- Put the value into an array, and miss. -/
def wrapZero : List Operation :=
  [.arrayAppend ⟨[.field "a"]⟩ (.ofBool true), .change ⟨[.field "b"]⟩ .absent]

/-- In two parts the sign survives, because the first part leaves an equal document alone;
in one part it does not. -/
theorem answer_signedZero :
    (signedZero.answer (onFirst loseSign)).1 =
      .ok ⟨0, [], ["operation #1 (unset) had no target in document 0"]⟩ ∧
    ((signedZero.answer (onFirst loseSign)).2.answer (onFirst wrapZero)).1 =
      .ok ⟨1, [], ["operation #1 (change) had no target in document 0"]⟩ ∧
    ((signedZero.answer (onFirst loseSign)).2.answer (onFirst wrapZero)).2.documents? "c" =
      some [.object [("a", .array [zero true, .bool true])], .object []] ∧
    (signedZero.answer (onFirst (loseSign ++ wrapZero))).2.documents? "c" =
      some [.object [("a", .array [zero false, .bool true])], .object []] ∧
    Exists fun outcome => (signedZero.answer (onFirst (loseSign ++ wrapZero))).1 = .ok outcome ∧
      EqualDocuments (signedZero.answer (onFirst (loseSign ++ wrapZero))).2
        ((signedZero.answer (onFirst loseSign)).2.answer (onFirst wrapZero)).2 ∧
      outcome.warnings.length = 2 := by
  have joins : (onFirst (loseSign ++ wrapZero)).Joins (onFirst loseSign) (onFirst wrapZero) :=
    ⟨rfl, rfl, rfl, rfl, rfl, rfl, rfl⟩
  have firstDone : (signedZero.answer (onFirst loseSign)).1 =
      .ok ⟨0, [], ["operation #1 (unset) had no target in document 0"]⟩ := by
    cbv
  have secondDone : ((signedZero.answer (onFirst loseSign)).2.answer (onFirst wrapZero)).1 =
      .ok ⟨1, [], ["operation #1 (change) had no target in document 0"]⟩ := by
    cbv
  have inParts :
      ((signedZero.answer (onFirst loseSign)).2.answer (onFirst wrapZero)).2.documents? "c" =
        some [.object [("a", .array [zero true, .bool true])], .object []] := by
    cbv
  have inOne : (signedZero.answer (onFirst (loseSign ++ wrapZero))).2.documents? "c" =
      some [.object [("a", .array [zero false, .bool true])], .object []] := by
    cbv
  exact ⟨firstDone, secondDone, inParts, inOne,
    answer_of_joins joins (.inl rfl) firstDone secondDone⟩

end Store
end Emend
