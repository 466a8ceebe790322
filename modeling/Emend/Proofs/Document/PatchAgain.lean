import Mathlib
import Emend.Proofs.Document.MergePatch

namespace Emend
namespace Json

/-!
# Patching again

A patch says what becomes of the members that it names, whatever they were before.  So the
documents that it leaves as they are can be told without applying it: each member that it
removes is absent, and each member that it gives a value has that value or, if the value is
an object, is in turn as that patch would leave it.  What a patch makes of any document is
such a document, and a second application finds nothing to do.
-/

/-! ## Documents that a patch leaves as they are -/

/-- A patch has nothing left to do in a document. -/
inductive SettledIn : Json -> Json -> Prop where
  | value {patch : Json} (noObject : patch.kind ≠ .object) : SettledIn patch patch
  | members {patch members : Members Json}
      (removed : forall name, Members.get? patch name = some .null ->
        Members.get? members name = none)
      (present : forall name value, Members.get? patch name = some value ->
        value.isNull = false -> (Members.get? members name).isSome = true)
      (inside : forall name value child, Members.get? patch name = some value ->
        value.isNull = false -> Members.get? members name = some child -> SettledIn value child) :
      SettledIn (.object patch) (.object members)

theorem eq_null_of_isNull {value : Json} (isNull : value.isNull = true) : value = .null := by
  cases value with
  | null => rfl
  | bool | number | string | array | object => cases isNull

theorem patchedMember_of_isNull_eq_false {value : Json} (notNull : value.isNull = false)
    (old : Option Json) :
    patchedMember (some value) old = some (mergePatch value (old.getD .null)) := by
  simp only [patchedMember, notNull, Bool.false_eq_true, if_false]

/-- A patch is settled in what it makes of any document. -/
theorem settledIn_mergePatch (patch : Json) :
    patch.WellFormed -> forall document : Json, patch.SettledIn (mergePatch patch document) := by
  induction patch using membersInduction with
  | step patch ih =>
      intro wellFormed document
      cases patch with
      | null | bool | number | string | array =>
          rw [mergePatch_of_kind_ne_object (by simp [kind])]
          exact .value (by simp [kind])
      | object patch =>
          rcases (wellFormed_object_iff patch).mp wellFormed with ⟨sorted, each⟩
          have after := get?_mergeMembers sorted
          rw [mergePatch_object]
          refine .members ?_ ?_ ?_
          · intro name asked
            rw [after, asked]
            rfl
          · intro name value asked notNull
            rw [after, asked, patchedMember_of_isNull_eq_false notNull]
            rfl
          · intro name value child asked notNull found
            rw [after, asked, patchedMember_of_isNull_eq_false notNull] at found
            have listed := Members.mem_of_get?_eq_some asked
            rw [← Option.some.inj found]
            exact ih name value listed (each _ listed) _

/-- A document in which a patch is settled is not changed by it. -/
theorem SettledIn.mergePatch_eq {patch document : Json} (settled : patch.SettledIn document) :
    patch.WellFormed -> document.WellFormed -> mergePatch patch document = document := by
  induction settled with
  | value noObject => exact fun _ _ => mergePatch_of_kind_ne_object noObject _
  | @members patch members removed present inside ih =>
      intro patchWellFormed wellFormed
      rcases (wellFormed_object_iff patch).mp patchWellFormed with ⟨patchSorted, patchEach⟩
      have kept : forall name, patchedMember (Members.get? patch name) (Members.get? members name) =
          Members.get? members name := by
        intro name
        cases asked : Members.get? patch name with
        | none => rfl
        | some value =>
            cases notNull : value.isNull with
            | true =>
                have isNull := eq_null_of_isNull notNull
                subst value
                exact (removed name asked).symm
            | false =>
                rcases Option.isSome_iff_exists.mp (present name value asked notNull) with
                  ⟨child, found⟩
                have settledChild := ih name value child asked notNull found
                  (patchEach _ (Members.mem_of_get?_eq_some asked)) (wellFormed.of_member? found)
                rw [patchedMember_of_isNull_eq_false notNull, found, Option.getD_some, settledChild]
      have merged : (object (mergeMembers patch members)).WellFormed :=
        mergePatch_object patch (.object members) ▸
          wellFormed_mergePatch _ patchWellFormed _ wellFormed
      have sameMembers : mergeMembers patch members = members :=
        Members.eq_of_get?_eq ((wellFormed_object_iff _).mp merged).1
          ((wellFormed_object_iff members).mp wellFormed).1
          fun name => (get?_mergeMembers patchSorted name members).trans (kept name)
      rw [mergePatch_object]
      exact congrArg object sameMembers

/-! ## The second application -/

/-- A patch applied twice makes the document that it makes when applied once, and the documents
that it leaves as they are from the start are those in which it is settled. -/
theorem mergePatch_again {patch document : Json} (patchWellFormed : patch.WellFormed)
    (wellFormed : document.WellFormed) :
    mergePatch patch (mergePatch patch document) = mergePatch patch document ∧
    (mergePatch patch document = document ↔ patch.SettledIn document) := by
  have settled := settledIn_mergePatch patch patchWellFormed document
  refine ⟨settled.mergePatch_eq patchWellFormed
    (wellFormed_mergePatch patch patchWellFormed document wellFormed), ?_, ?_⟩
  · intro same
    rwa [same] at settled
  · intro before
    exact before.mergePatch_eq patchWellFormed wellFormed

/-- A patch with nulls in an object and in an array, and with objects for members that are
missing or no objects. -/
def refill : Json :=
  .object [("a", .object [("b", .null), ("c", .object [("d", .null)])]),
    ("e", .array [.null, .object [("f", .null)]]), ("g", .null), ("h", .object [])]

def refillable : Json :=
  .object [("a", .string "x"), ("e", .object [("f", .bool true)]), ("g", .array []),
    ("i", .null)]

theorem mergePatch_again_refill :
    mergePatch refill refillable =
      .object [("a", .object [("c", .object [])]), ("e", .array [.null, .object [("f", .null)]]),
        ("h", .object []), ("i", .null)] ∧
    mergePatch refill (mergePatch refill refillable) = mergePatch refill refillable ∧
    ¬ refill.SettledIn refillable := by
  have merged : mergePatch refill refillable =
      .object [("a", .object [("c", .object [])]), ("e", .array [.null, .object [("f", .null)]]),
        ("h", .object []), ("i", .null)] := by
    cbv
  have twice := @mergePatch_again refill refillable (by decide) (by decide)
  refine ⟨merged, twice.1, ?_⟩
  intro settled
  have unchanged := twice.2.mpr settled
  rw [merged] at unchanged
  injection unchanged with members
  injection members with first
  injection first with _ value
  cases value

end Json
end Emend
