import Mathlib
import Emend.Proofs.Document.PatchLeaves
import Emend.Proofs.Json.Equality

namespace Emend

open Json (fields)

/-!
# Patches by their lists of leaves

The list of leaves is all that the notes know of a patch.  Nothing is lost in it: it holds
exactly the values without members to which the patch leads along names, in the order of the
names, and patches with the same list are the same.

An object without members is a leaf for that reason.  Every value then holds a leaf, so a name
that a patch has is the name of a step to some leaf, and a patch can be read off the list one
name after the other.
-/

namespace Json

/-! ## Values with the same leaves -/

/-- Names lead in both values to the same leaves.  No names lead to the values themselves, which
are left out. -/
def SameLeaves (value other : Json) : Prop :=
  forall names leaf, names ≠ [] -> leaf.members = [] ->
    (value.resolve? (fields names) = some leaf ↔ other.resolve? (fields names) = some leaf)

namespace SameLeaves

variable {value other : Json}

theorem symm (same : value.SameLeaves other) : other.SameLeaves value :=
  fun names leaf further bare => (same names leaf further bare).symm

/-- A name of one value is a name of the other, with the same leaves below it.  If it has itself a
leaf for its value then the other has the same value there. -/
theorem exists_member (same : value.SameLeaves other) {name : String} {child : Json}
    (here : value.member? name = some child) :
    Exists fun otherChild => other.member? name = some otherChild ∧
      child.SameLeaves otherChild ∧ (child.members = [] -> otherChild = child) := by
  have below : forall names leaf, leaf.members = [] ->
      (child.resolve? (fields names) = some leaf ↔
        other.resolve? (fields (name :: names)) = some leaf) := by
    intro names leaf bare
    rw [← resolve?_fields_cons here]
    exact same (name :: names) leaf (List.cons_ne_nil _ _) bare
  rcases exists_leaf child with ⟨names, leaf, resolved, bare⟩
  rcases exists_member_of_resolve? ((below names leaf bare).mp resolved) with
    ⟨otherChild, there, _⟩
  refine ⟨otherChild, there, ?_, ?_⟩
  · intro names leaf _ bare
    rw [below names leaf bare, resolve?_fields_cons there]
  · intro childBare
    have reached := (below [] child childBare).mp (resolve?_nil child)
    rw [resolve?_fields_cons there, fields_nil, resolve?_nil] at reached
    exact Option.some.inj reached

end SameLeaves

theorem eq_of_members_eq {value other : Json} (filled : value.members ≠ [])
    (same : value.members = other.members) : value = other := by
  rw [eq_object_of_members_ne_nil filled, same]
  exact (eq_object_of_members_ne_nil (same ▸ filled)).symm

/-- The leaves of a well-formed value determine its members. -/
theorem SameLeaves.members_eq (value : Json) :
    value.WellFormed -> forall other : Json, other.WellFormed -> value.SameLeaves other ->
      value.members = other.members := by
  induction value using membersInduction with
  | step value ih =>
      intro wellFormed other otherWellFormed same
      have carried : forall name child, value.member? name = some child ->
          other.member? name = some child := by
        intro name child here
        rcases same.exists_member here with ⟨otherChild, there, sameBelow, whole⟩
        by_cases bare : child.members = []
        · rw [there, whole bare]
        · have sameMembers := ih name child (Members.mem_of_get?_eq_some here)
            (wellFormed.of_member? here) otherChild (otherWellFormed.of_member? there) sameBelow
          rw [there, eq_of_members_eq bare sameMembers]
      have carriedBack : forall name child, other.member? name = some child ->
          value.member? name = some child := by
        intro name child there
        rcases same.symm.exists_member there with ⟨first, here, _⟩
        rw [here, ← carried name first here, there]
      apply Members.eq_of_get?_eq wellFormed.members.1 otherWellFormed.members.1
      intro name
      exact Option.ext fun child => ⟨carried name child, carriedBack name child⟩

end Json

/-! ## Patches with the same leaves -/

theorem mem_patchLeaves_ofNames_iff {patch : Members Json}
    (wellFormed : (Json.object patch).WellFormed) {names : List String} (further : names ≠ [])
    {leaf : Json} (bare : leaf.members = []) :
    (Path.ofNames names, leaf) ∈ patchLeaves patch ↔
      (Json.object patch).resolve? (fields names) = some leaf := by
  rw [mem_patchLeaves_iff wellFormed]
  constructor
  · rintro ⟨others, _, place, resolved, _⟩
    have sameSteps : fields names = fields others := congrArg Path.steps place
    rw [sameSteps]
    exact resolved
  · exact fun resolved => ⟨names, further, rfl, resolved, bare⟩

theorem sameLeaves_of_patchLeaves_eq {patch other : Members Json}
    (wellFormed : (Json.object patch).WellFormed) (otherWellFormed : (Json.object other).WellFormed)
    (same : patchLeaves patch = patchLeaves other) :
    (Json.object patch).SameLeaves (.object other) := by
  intro names leaf further bare
  rw [← mem_patchLeaves_ofNames_iff wellFormed further bare, same,
    mem_patchLeaves_ofNames_iff otherWellFormed further bare]

theorem eq_of_patchLeaves_eq {patch other : Members Json}
    (wellFormed : (Json.object patch).WellFormed) (otherWellFormed : (Json.object other).WellFormed)
    (same : patchLeaves patch = patchLeaves other) : patch = other :=
  Json.SameLeaves.members_eq (.object patch) wellFormed (.object other) otherWellFormed
    (sameLeaves_of_patchLeaves_eq wellFormed otherWellFormed same)

/-! ## Patches with equal leaves -/

/-- A leaf, with the sign of every zero in it gone. -/
def leafRepresentative (leaf : Path × Json) : Path × Json :=
  (leaf.1, leaf.2.representative)

theorem leaves_representative_of_members (base : Path) {members : Members Json}
    (each : forall name child, (name, child) ∈ members ->
      leavesAt (base.field name) child.representative =
        (leavesAt (base.field name) child).map leafRepresentative) :
    ((Members.mapValues Json.representative members).flatMap fun member =>
        leavesAt (base.field member.1) member.2) =
      (members.flatMap fun member => leavesAt (base.field member.1) member.2).map
        leafRepresentative := by
  rw [Members.mapValues, List.flatMap_map, List.map_flatMap]
  exact List.flatMap_congr fun member listed => each member.1 member.2 listed

theorem leavesAt_representative (value : Json) :
    forall base : Path, leavesAt base value.representative =
      (leavesAt base value).map leafRepresentative := by
  induction value using Json.membersInduction with
  | step value ih =>
      intro base
      have members := Json.members_representative value
      by_cases bare : value.members = []
      · rw [bare] at members
        rw [leavesAt_of_members_eq_nil base members, leavesAt_of_members_eq_nil base bare]
        rfl
      · have filled : value.representative.members ≠ [] := by
          rw [members]
          exact fun none => bare (List.map_eq_nil_iff.mp none)
        rw [leavesAt_of_members_ne_nil base filled, leavesAt_of_members_ne_nil base bare, members]
        apply leaves_representative_of_members
        intro name child listed
        exact ih name child listed (base.field name)

/-- The walk moves values about and looks at no number. -/
theorem patchLeaves_representative (patch : Members Json) :
    patchLeaves (Members.mapValues Json.representative patch) =
      (patchLeaves patch).map leafRepresentative := by
  rw [patchLeaves_eq_flatMap, patchLeaves_eq_flatMap]
  apply leaves_representative_of_members
  intro name child _
  exact leavesAt_representative child (Path.root.field name)

/-- Two lists have the same paths in the same places, with equal values. -/
def EqualLeaves (leaves others : List (Path × Json)) : Prop :=
  List.Forall₂ (fun leaf other => leaf.1 = other.1 ∧ leaf.2.equal other.2 = true) leaves others

theorem EqualLeaves.map_leafRepresentative {leaves others : List (Path × Json)}
    (equal : EqualLeaves leaves others) :
    leaves.map leafRepresentative = others.map leafRepresentative := by
  induction equal with
  | nil => rfl
  | @cons leaf other rest otherRest same _ ih =>
      have head : leafRepresentative leaf = leafRepresentative other :=
        Prod.ext same.1 ((Json.equal_iff leaf.2 other.2).mp same.2)
      rw [List.map_cons, List.map_cons, head, ih]

theorem equal_of_equalLeaves {patch other : Members Json}
    (wellFormed : (Json.object patch).WellFormed) (otherWellFormed : (Json.object other).WellFormed)
    (equal : EqualLeaves (patchLeaves patch) (patchLeaves other)) :
    (Json.object patch).equal (.object other) = true := by
  have represented := Json.WellFormed.representative _ wellFormed
  have otherRepresented := Json.WellFormed.representative _ otherWellFormed
  rw [Json.equal_iff]
  rw [Json.representative_object] at represented otherRepresented ⊢
  rw [Json.representative_object]
  apply congrArg Json.object
  apply eq_of_patchLeaves_eq represented otherRepresented
  rw [patchLeaves_representative, patchLeaves_representative, equal.map_leafRepresentative]

/-! ## What the list says -/

theorem isLeaf_iff (patch : Members Json) (path : Path) (leaf : Json) :
    IsLeaf patch path leaf ↔
      path.isRoot = false ∧ (forall step, step ∈ path.steps -> step.isIndex = false) ∧
        (Json.object patch).get? path = some leaf ∧ leaf.members = [] := by
  constructor
  · rintro ⟨names, further, rfl, resolved, bare⟩
    refine ⟨?_, ?_, resolved, bare⟩
    · cases names with
      | nil => exact absurd rfl further
      | cons name rest => rfl
    · intro step listed
      rcases List.mem_map.mp listed with ⟨name, _, rfl⟩
      rfl
  · rintro ⟨below, noIndex, found, bare⟩
    rcases exists_names_of_no_index path.steps noIndex with ⟨names, same⟩
    have place : path = Path.ofNames names := congrArg Path.mk same
    subst path
    refine ⟨names, ?_, rfl, found, bare⟩
    rintro rfl
    cases below

theorem Path.Precedes.startsWith_eq_false {first second : Path} (before : first.Precedes second) :
    first.startsWith second = false ∧ second.startsWith first = false := by
  constructor <;> rw [Bool.eq_false_iff, ne_eq, Path.startsWith_iff]
  · exact before.apart.2
  · exact before.apart.1

/-- A list of paths and values is the list of the leaves of a patch. -/
structure ListsLeaves (patch : Members Json) (leaves : List (Path × Json)) : Prop where
  /-- Listed are the paths of names below the root that lead in the patch to a value without
  members, with that value. -/
  listed : forall path leaf, (path, leaf) ∈ leaves ↔
    path.isRoot = false ∧ (forall step, step ∈ path.steps -> step.isIndex = false) ∧
      (Json.object patch).get? path = some leaf ∧ leaf.members = []
  /-- No path is listed twice, and none begins with another one. -/
  apart : leaves.Pairwise fun first second => first.1 ≠ second.1 ∧
    first.1.startsWith second.1 = false ∧ second.1.startsWith first.1 = false
  /-- The order is depth-first: where two paths part, the one with the lower name comes first. -/
  inOrder : leaves.Pairwise fun first second => first.1.Precedes second.1

/-- The walk of a patch lists its leaves, and the list tells the patch from every other one:
the same list comes from the same patch only, and equal lists come from equal patches. -/
theorem patchLeaves_exact_and_lossless {patch : Members Json}
    (wellFormed : (Json.object patch).WellFormed) :
    ListsLeaves patch (patchLeaves patch) ∧
    forall other : Members Json, (Json.object other).WellFormed ->
      (patchLeaves patch = patchLeaves other -> patch = other) ∧
      (EqualLeaves (patchLeaves patch) (patchLeaves other) ->
        (Json.object patch).equal (.object other) = true) := by
  have inOrder := pairwise_patchLeaves wellFormed
  refine ⟨⟨?_, inOrder.imp fun before => ⟨before.ne, before.startsWith_eq_false⟩, inOrder⟩, ?_⟩
  · intro path leaf
    rw [mem_patchLeaves_iff wellFormed, isLeaf_iff]
  · intro other otherWellFormed
    exact ⟨eq_of_patchLeaves_eq wellFormed otherWellFormed,
      equal_of_equalLeaves wellFormed otherWellFormed⟩

/-- A patch with an object without members, nulls, and a zero with a sign. -/
def signedPatch (negative : Bool) : Members Json :=
  [("a", .object [("b", .null), ("c", .object []), ("d", .object [("e",
      .number (.float ⟨negative, 0, Binary64.rankLimit_pos⟩))])]),
    ("f", .array [.object [("g", .null)]])]

/-- The two zeros make two patches with equal leaves; and the members of the patch in reverse
order, put in order, are the patch again. -/
theorem patchLeaves_exact_and_lossless_signed :
    (patchLeaves (signedPatch true)).map Prod.fst =
      [Path.ofNames ["a", "b"], Path.ofNames ["a", "c"], Path.ofNames ["a", "d", "e"],
        Path.ofNames ["f"]] ∧
    ListsLeaves (signedPatch true) (patchLeaves (signedPatch true)) ∧
    signedPatch true = Members.ofList (signedPatch true).reverse ∧
    (Json.object (signedPatch true)).equal (.object (signedPatch false)) = true := by
  have wellFormed : forall negative, (Json.object (signedPatch negative)).WellFormed := by decide
  have reordered : (Json.object (Members.ofList (signedPatch true).reverse)).WellFormed := by
    decide
  rcases patchLeaves_exact_and_lossless (wellFormed true) with ⟨lists, tells⟩
  refine ⟨by cbv, lists, (tells _ reordered).1 (by cbv), (tells _ (wellFormed false)).2 ?_⟩
  exact .cons ⟨rfl, rfl⟩ (.cons ⟨rfl, rfl⟩ (.cons ⟨rfl, rfl⟩ (.cons ⟨rfl, rfl⟩ .nil)))

end Emend
