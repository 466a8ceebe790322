import Emend.Document
import Emend.Document.MergePatch
import Emend.Proofs.Json.WellFormed

namespace Emend
namespace Json

/-!
# Laws of merge patches

A patch goes through its members in their order and changes the object as it
goes.  When no name is repeated the order is lost in the result: what a name
means afterwards depends only on what it means in the patch and in the
document.
-/

/-! ## Names as paths -/

/-- The steps through members with the given names. -/
def fields (names : List String) : List Step :=
  names.map .field

@[simp]
theorem fields_nil : fields [] = [] := rfl

@[simp]
theorem fields_cons (name : String) (rest : List String) :
    fields (name :: rest) = .field name :: fields rest := rfl

theorem fields_append (front back : List String) :
    fields (front ++ back) = fields front ++ fields back :=
  List.map_append

@[simp]
theorem child?_field (value : Json) (name : String) :
    value.child? (.field name) = value.member? name := by
  cases value <;> rfl

@[simp]
theorem resolve?_nil (value : Json) : value.resolve? [] = some value := by
  rw [resolve?]

theorem resolve?_field (value : Json) (name : String) (rest : List Step) :
    value.resolve? (.field name :: rest) =
      (value.member? name).bind fun child => child.resolve? rest := by
  rw [resolve?, child?_field]

theorem resolve?_fields_cons {value child : Json} {name : String}
    (here : value.member? name = some child) (rest : List String) :
    value.resolve? (fields (name :: rest)) = child.resolve? (fields rest) := by
  rw [fields_cons, resolve?_field, here]
  rfl

theorem exists_member_of_resolve? {value found : Json} {name : String} {rest : List String}
    (resolved : value.resolve? (fields (name :: rest)) = some found) :
    Exists fun child => value.member? name = some child ∧
      child.resolve? (fields rest) = some found := by
  rw [fields_cons, resolve?_field] at resolved
  exact Option.bind_eq_some_iff.mp resolved

/-- A value with members is an object. -/
theorem eq_object_of_members_ne_nil {value : Json} (filled : value.members ≠ []) :
    value = .object value.members := by
  cases value with
  | object members => rfl
  | null => exact False.elim (filled rfl)
  | bool value => exact False.elim (filled rfl)
  | number value => exact False.elim (filled rfl)
  | string value => exact False.elim (filled rfl)
  | array items => exact False.elim (filled rfl)

theorem members_ne_nil_of_member? {value child : Json} {name : String}
    (found : value.member? name = some child) : value.members ≠ [] := by
  intro empty
  rw [member?, empty] at found
  cases found

/-- A path that goes on below a value shows that the value is an object. -/
theorem members_ne_nil_of_resolve? {value found : Json} {name : String} {rest : List String}
    (resolved : value.resolve? (fields (name :: rest)) = some found) : value.members ≠ [] := by
  rcases exists_member_of_resolve? resolved with ⟨child, here, _⟩
  exact members_ne_nil_of_member? here

/-! ## One level -/

theorem mergeMembers_cons (name : String) (value : Json) (rest : List (String × Json))
    (members : Members Json) :
    mergeMembers ((name, value) :: rest) members =
      mergeMembers rest
        (if value.isNull then Members.erase name members
          else Members.insert name
            (mergePatch value ((Members.get? members name).getD .null)) members) := by
  cases value <;> rfl

@[simp]
theorem mergePatch_object (patch : Members Json) (document : Json) :
    mergePatch (.object patch) document = .object (mergeMembers patch document.members) := by
  rw [mergePatch]

theorem mergePatch_empty (document : Json) :
    mergePatch (.object []) document = .object document.members := by
  rw [mergePatch_object, mergeMembers]

/-- A patch that is no object takes the place of any document. -/
theorem mergePatch_of_kind_ne_object {patch : Json} (noObject : patch.kind ≠ .object)
    (document : Json) : mergePatch patch document = patch := by
  cases patch with
  | object members => exact False.elim (noObject rfl)
  | null => rfl
  | bool value => rfl
  | number value => rfl
  | string value => rfl
  | array items => rfl

/-- The value of a name after a patch. -/
def patchedMember (change old : Option Json) : Option Json :=
  match change with
  | none => old
  | some value => if value.isNull then none else some (mergePatch value (old.getD .null))

theorem get?_mergeMembers {patch : Members Json} (sorted : Members.Sorted patch) (name : String) :
    forall members : Members Json,
      Members.get? (mergeMembers patch members) name =
        patchedMember (Members.get? patch name) (Members.get? members name) := by
  induction patch with
  | nil =>
      intro members
      rw [mergeMembers]
      rfl
  | cons entry rest ih =>
      intro members
      rcases entry with ⟨first, value⟩
      rw [mergeMembers_cons, ih (List.pairwise_cons.mp sorted).2]
      by_cases same : name = first
      · subst first
        rw [Members.get?_tail_of_sorted sorted, Members.get?_cons_same]
        cases removes : value.isNull with
        | true => simp only [patchedMember, if_true, Members.get?_erase_same, removes]
        | false =>
            simp only [patchedMember, Bool.false_eq_true, if_false, Members.get?_insert_same,
              removes]
      · rw [Members.get?_cons_of_ne same]
        split
        · rw [Members.get?_erase_of_ne same]
        · rw [Members.get?_insert_of_ne same]

/-- A path after a patch: its first name decides whether the patch concerns it,
and the rest of it is resolved in the patched value of that name. -/
theorem resolve?_mergePatch {patch : Members Json} (sorted : Members.Sorted patch)
    (document : Json) (name : String) (rest : List Step) :
    (mergePatch (.object patch) document).resolve? (.field name :: rest) =
      (patchedMember (Members.get? patch name) (document.member? name)).bind
        fun child => child.resolve? rest := by
  rw [mergePatch_object, resolve?_field]
  exact congrArg (fun found => found.bind fun child => child.resolve? rest)
    (get?_mergeMembers sorted name document.members)

/-! ## Well-formedness -/

theorem wellFormed_mergeMembers (patch : List (String × Json))
    (each : forall name value, (name, value) ∈ patch -> forall document : Json,
      document.WellFormed -> (mergePatch value document).WellFormed) :
    forall members : Members Json, (object members).WellFormed ->
      (object (mergeMembers patch members)).WellFormed := by
  induction patch with
  | nil =>
      intro members wellFormed
      rw [mergeMembers]
      exact wellFormed
  | cons entry rest ih =>
      intro members wellFormed
      rcases entry with ⟨name, value⟩
      rw [mergeMembers_cons]
      apply ih (fun other child listed => each other child (List.mem_cons_of_mem _ listed))
      have parts := (wellFormed_object_iff members).mp wellFormed
      apply (wellFormed_object_iff _).mpr
      split
      · refine ⟨parts.1.erase name, ?_⟩
        intro member listed
        exact parts.2 member (List.mem_filter.mp listed).1
      · refine ⟨parts.1.insert name _, ?_⟩
        intro member listed
        rcases Members.mem_insert listed with same | old
        · subst member
          apply each name value List.mem_cons_self
          cases found : Members.get? members name with
          | none => trivial
          | some child => exact wellFormed.of_member? found
        · exact parts.2 member old

/-- A well-formed patch keeps documents well-formed. -/
theorem wellFormed_mergePatch (patch : Json) :
    patch.WellFormed -> forall document : Json, document.WellFormed ->
      (mergePatch patch document).WellFormed := by
  induction patch using membersInduction with
  | step patch ih =>
      intro wellFormed document documentWellFormed
      cases patch with
      | object members =>
          rw [mergePatch_object]
          have inside := wellFormed.members.2
          apply wellFormed_mergeMembers members
          · intro name value listed
            exact ih name value listed (inside (name, value) listed)
          · exact (wellFormed_object_iff _).mpr documentWellFormed.members
      | null => exact wellFormed
      | bool value => exact wellFormed
      | number value => exact wellFormed
      | string value => exact wellFormed
      | array items => exact wellFormed

end Json
end Emend
