import Mathlib.Data.List.Basic
import Emend.Proofs.Document.MergePatch
import Emend.Update.Note

namespace Emend

open Json (fields)

/-!
# The leaves of a patch

The leaves of a patch are found by walking it.  Here they are described by
looking paths up in it: a path of names leads to a leaf when it resolves in the
patch to a value without members.  The walk of a well-formed patch takes the
names in their order, so of two leaves the first has the lower name where their
paths part, and no path leads to two leaves.
-/

/-! ## The walk, level by level -/

theorem leavesOfMembers_eq_flatMap (base : Path) (members : List (String × Json)) :
    leavesOfMembers base members =
      members.flatMap fun member => leavesAt (base.field member.1) member.2 := by
  induction members with
  | nil => rw [leavesOfMembers, List.flatMap_nil]
  | cons member rest ih =>
      rcases member with ⟨name, value⟩
      rw [leavesOfMembers, List.flatMap_cons, ih]

theorem leavesAt_of_members_eq_nil (base : Path) {value : Json} (bare : value.members = []) :
    leavesAt base value = [(base, value)] := by
  cases value with
  | object members =>
      change members = [] at bare
      rw [bare, leavesAt]
  | null => rw [leavesAt]
  | bool value => rw [leavesAt]
  | number value => rw [leavesAt]
  | string value => rw [leavesAt]
  | array items => rw [leavesAt]

theorem leavesAt_of_members_ne_nil (base : Path) {value : Json} (filled : value.members ≠ []) :
    leavesAt base value =
      value.members.flatMap fun member => leavesAt (base.field member.1) member.2 := by
  rw [← leavesOfMembers_eq_flatMap]
  cases value with
  | object members =>
      cases members with
      | nil => exact False.elim (filled rfl)
      | cons member rest =>
          rw [leavesAt]
          rfl
  | null => exact False.elim (filled rfl)
  | bool value => exact False.elim (filled rfl)
  | number value => exact False.elim (filled rfl)
  | string value => exact False.elim (filled rfl)
  | array items => exact False.elim (filled rfl)

/-- The walk below a path is the walk from the root, with the path in front. -/
theorem leavesAt_eq_map (value : Json) :
    forall base : Path, leavesAt base value =
      (leavesAt .root value).map fun leaf => (⟨base.steps ++ leaf.1.steps⟩, leaf.2) := by
  induction value using Json.membersInduction with
  | step value ih =>
      intro base
      by_cases bare : value.members = []
      · rw [leavesAt_of_members_eq_nil base bare, leavesAt_of_members_eq_nil .root bare]
        simp [Path.root]
      · rw [leavesAt_of_members_ne_nil base bare, leavesAt_of_members_ne_nil .root bare,
          List.map_flatMap]
        apply List.flatMap_congr
        rintro ⟨name, child⟩ listed
        rw [ih name child listed (base.field name), ih name child listed (Path.root.field name),
          List.map_map]
        simp [Function.comp_def, Path.field, Path.child, Path.root]

/-! ## Leaves by their paths -/

theorem resolve?_fields_of_members_eq_nil {value leaf : Json} {names : List String}
    (bare : value.members = []) (resolved : value.resolve? (fields names) = some leaf) :
    names = [] ∧ leaf = value := by
  cases names with
  | nil =>
      rw [Json.fields_nil, Json.resolve?_nil] at resolved
      exact ⟨rfl, (Option.some.inj resolved).symm⟩
  | cons name rest => exact False.elim (Json.members_ne_nil_of_resolve? resolved bare)

theorem steps_field_append (base : Path) (name : String) (rest : List String) :
    (base.field name).steps ++ fields rest = base.steps ++ fields (name :: rest) := by
  rw [Path.field, Path.child, Json.fields_cons, List.append_assoc, List.singleton_append]

/-- Below any path the walk finds exactly the values without members. -/
theorem mem_leavesAt_iff (value : Json) :
    value.WellFormed -> forall (base path : Path) (leaf : Json),
      (path, leaf) ∈ leavesAt base value ↔
        Exists fun names => path.steps = base.steps ++ fields names ∧
          value.resolve? (fields names) = some leaf ∧ leaf.members = [] := by
  induction value using Json.membersInduction with
  | step value ih =>
      intro wellFormed base path leaf
      by_cases bare : value.members = []
      · rw [leavesAt_of_members_eq_nil base bare, List.mem_singleton]
        constructor
        · intro same
          cases same
          refine ⟨[], ?_, Json.resolve?_nil _, bare⟩
          rw [Json.fields_nil, List.append_nil]
        · rintro ⟨names, place, resolved, _⟩
          rcases resolve?_fields_of_members_eq_nil bare resolved with ⟨none, same⟩
          rw [none, Json.fields_nil, List.append_nil] at place
          rcases path with ⟨steps⟩
          rcases base with ⟨baseSteps⟩
          rw [same, show steps = baseSteps from place]
      · have sorted := wellFormed.members.1
        have inside := wellFormed.members.2
        rw [leavesAt_of_members_ne_nil base bare, List.mem_flatMap]
        constructor
        · rintro ⟨⟨name, child⟩, listed, found⟩
          have below := (ih name child listed (inside _ listed) (base.field name) path leaf).mp found
          rcases below with ⟨names, place, resolved, leafBare⟩
          have here : value.member? name = some child :=
            (Members.get?_eq_some_iff_of_sorted sorted).mpr listed
          refine ⟨name :: names, ?_, ?_, leafBare⟩
          · rw [place, steps_field_append]
          · rw [Json.resolve?_fields_cons here]
            exact resolved
        · rintro ⟨names, place, resolved, leafBare⟩
          cases names with
          | nil =>
              rw [Json.fields_nil, Json.resolve?_nil] at resolved
              cases resolved
              exact False.elim (bare leafBare)
          | cons name names =>
              rcases Json.exists_member_of_resolve? resolved with ⟨child, here, below⟩
              have listed : (name, child) ∈ value.members := Members.mem_of_get?_eq_some here
              refine ⟨(name, child), listed, ?_⟩
              apply (ih name child listed (inside _ listed) (base.field name) path leaf).mpr
              refine ⟨names, ?_, below, leafBare⟩
              rw [place, steps_field_append]

/-- The path through members with the given names. -/
def Path.ofNames (names : List String) : Path :=
  ⟨fields names⟩

theorem patchLeaves_eq_flatMap (patch : Members Json) :
    patchLeaves patch =
      patch.flatMap fun member => leavesAt (Path.root.field member.1) member.2 := by
  rw [patchLeaves, leavesOfMembers_eq_flatMap]

/-- A path of names leads in a patch to a value without members. -/
def IsLeaf (patch : Members Json) (path : Path) (leaf : Json) : Prop :=
  Exists fun names => names ≠ [] ∧ path = Path.ofNames names ∧
    (Json.object patch).resolve? (fields names) = some leaf ∧ leaf.members = []

theorem mem_patchLeaves_iff {patch : Members Json} (wellFormed : (Json.object patch).WellFormed)
    (path : Path) (leaf : Json) :
    (path, leaf) ∈ patchLeaves patch ↔ IsLeaf patch path leaf := by
  by_cases empty : patch = []
  · subst patch
    constructor
    · intro listed
      cases listed
    · rintro ⟨names, nonempty, place, resolved, _⟩
      exact False.elim (nonempty (resolve?_fields_of_members_eq_nil rfl resolved).1)
  · have filled : (Json.object patch).members ≠ [] := empty
    have walk : patchLeaves patch = leavesAt Path.root (.object patch) := by
      rw [patchLeaves_eq_flatMap, leavesAt_of_members_ne_nil Path.root filled]
      rfl
    rw [walk, mem_leavesAt_iff _ wellFormed]
    constructor
    · rintro ⟨names, place, resolved, bare⟩
      refine ⟨names, ?_, ?_, resolved, bare⟩
      · intro none
        subst names
        rw [Json.fields_nil, Json.resolve?_nil] at resolved
        cases resolved
        exact filled bare
      · rcases path with ⟨steps⟩
        exact congrArg Path.mk place
    · rintro ⟨names, _, place, resolved, bare⟩
      refine ⟨names, ?_, resolved, bare⟩
      rw [place]
      rfl

/-! ## The order of the walk -/

/-- A path precedes another one if the two go the same way, and then on to members of which the
first has the lower name. -/
def Path.Precedes (first second : Path) : Prop :=
  Exists fun shared : List Step => Exists fun lower : String => Exists fun higher : String =>
    compare lower higher = .lt ∧ shared ++ [.field lower] <+: first.steps ∧
      shared ++ [.field higher] <+: second.steps

/-- Two steps to members of different names lead on to no common path. -/
theorem Path.Precedes.apart {first second : Path} (before : first.Precedes second) :
    ¬ first.steps <+: second.steps ∧ ¬ second.steps <+: first.steps := by
  rcases before with ⟨shared, lower, higher, ordered, onFirst, onSecond⟩
  have never : forall steps : List Step, shared ++ [.field lower] <+: steps ->
      ¬ shared ++ [.field higher] <+: steps := by
    intro steps left right
    have equal : shared ++ [Step.field lower] = shared ++ [.field higher] := by
      refine List.IsPrefix.eq_of_length (List.prefix_of_prefix_length_le left right ?_) ?_ <;>
        simp only [List.length_append, List.length_singleton, Nat.le_refl]
    have lastEqual := List.append_cancel_left equal
    cases lastEqual
    exact Members.ne_of_compare_eq_lt ordered rfl
  exact ⟨fun ahead => never _ (onFirst.trans ahead) onSecond,
    fun behind => never _ onFirst (onSecond.trans behind)⟩

theorem Path.Precedes.ne {first second : Path} (before : first.Precedes second) :
    first ≠ second := by
  intro same
  subst same
  exact before.apart.1 List.prefix_rfl

theorem prefix_of_mem_leavesAt (value : Json) :
    forall (base : Path) (leaf : Path × Json), leaf ∈ leavesAt base value ->
      base.steps <+: leaf.1.steps := by
  induction value using Json.membersInduction with
  | step value ih =>
      intro base leaf listed
      by_cases bare : value.members = []
      · rw [leavesAt_of_members_eq_nil base bare] at listed
        have same := List.mem_singleton.mp listed
        subst leaf
        exact List.prefix_rfl
      · rw [leavesAt_of_members_ne_nil base bare] at listed
        rcases List.mem_flatMap.mp listed with ⟨⟨name, child⟩, inside, found⟩
        exact (List.prefix_append _ _).trans (ih name child inside (base.field name) leaf found)

/-- Members in order have their leaves in order if each of them has. -/
theorem pairwise_leaves_of_members (base : Path) {members : Members Json}
    (sorted : Members.Sorted members)
    (each : forall name value, (name, value) ∈ members ->
      (leavesAt (base.field name) value).Pairwise fun first second => first.1.Precedes second.1) :
    (members.flatMap fun member => leavesAt (base.field member.1) member.2).Pairwise
      fun first second => first.1.Precedes second.1 := by
  apply List.pairwise_flatMap.mpr
  refine ⟨fun member listed => each member.1 member.2 listed, List.Pairwise.imp ?_ sorted⟩
  intro left right ordered leaf found other otherFound
  exact ⟨base.steps, left.1, right.1, ordered, prefix_of_mem_leavesAt left.2 _ leaf found,
    prefix_of_mem_leavesAt right.2 _ other otherFound⟩

theorem pairwise_leavesAt (value : Json) :
    value.WellFormed -> forall base : Path,
      (leavesAt base value).Pairwise fun first second => first.1.Precedes second.1 := by
  induction value using Json.membersInduction with
  | step value ih =>
      intro wellFormed base
      by_cases bare : value.members = []
      · rw [leavesAt_of_members_eq_nil base bare]
        exact List.pairwise_singleton _ _
      · rw [leavesAt_of_members_ne_nil base bare]
        apply pairwise_leaves_of_members base wellFormed.members.1
        intro name child listed
        exact ih name child listed (wellFormed.members.2 _ listed) (base.field name)

/-- The leaves of a patch come in depth-first order of the names. -/
theorem pairwise_patchLeaves {patch : Members Json} (wellFormed : (Json.object patch).WellFormed) :
    (patchLeaves patch).Pairwise fun first second => first.1.Precedes second.1 := by
  have parts := wellFormed.members
  rw [patchLeaves_eq_flatMap]
  apply pairwise_leaves_of_members Path.root parts.1
  intro name value listed
  exact pairwise_leavesAt value (parts.2 _ listed) (Path.root.field name)

theorem nodup_patchLeaves {patch : Members Json} (wellFormed : (Json.object patch).WellFormed) :
    ((patchLeaves patch).map Prod.fst).Nodup := by
  rw [List.nodup_iff_pairwise_ne, List.pairwise_map]
  exact (pairwise_patchLeaves wellFormed).imp Path.Precedes.ne

end Emend
