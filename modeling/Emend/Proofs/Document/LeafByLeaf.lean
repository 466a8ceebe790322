import Mathlib
import Emend.Proofs.Document.PatchLeaves
import Emend.Proofs.Document.Removal
import Emend.Proofs.Document.WellFormed
import Emend.Proofs.Operation.Commute

namespace Emend

open Json (fields)

/-!
# Patches leaf by leaf

Where a document has an object wherever a patch has members, the patch can be taken apart into
its leaves.  Each leaf is then a change at its own path: null removes, an empty object asks for
an object, and any other value is written.  Carried out one after the other, from the root each
time, the leaves make what the patch makes in one go.

The order of the leaves does not matter.  The paths of two leaves part at members with
different names, so what is done at the one is not noticed at the other.
-/

namespace Json

/-! ## One leaf -/

/-- A document after one leaf of a patch. -/
def placeLeaf (document : Json) : Path × Json -> Json
  | (path, .null) => (document.delete? path).getD document
  | (path, .object []) =>
      if (document.get? path).map kind = some .object then document
      else (document.set? path (.object [])).getD document
  | (path, value) => (document.set? path value).getD document

/-- What a leaf changes in the container in which the last step of its path is taken. -/
def leafChange? (value container : Json) (step : Step) : Option Json :=
  match value with
  | .null => container.drop? step
  | .object [] =>
      if (container.child? step).map kind = some .object then none
      else container.put? step (.object [])
  | value => container.put? step value

theorem placeLeaf_eq (document : Json) (path : Path) (value : Json) :
    document.placeLeaf (path, value) =
      (document.updateParent? path (leafChange? value)).getD document := by
  cases value with
  | object members =>
      cases members with
      | cons member rest => rfl
      | nil =>
          rcases path.eq_root_or_child with rfl | ⟨front, last, rfl⟩
          · rw [placeLeaf, updateParent?_root, set?, updateParent?_root]
            split <;> rfl
          · rw [placeLeaf, get?_child, set?_child, updateParent?_child]
            cases document.get? front with
            | none => rfl
            | some container =>
                simp only [Option.bind_some, leafChange?]
                split <;> rfl
  | null | bool | number | string | array => rfl

/-- A leaf as a change of one member: whether it hits, and what the member becomes. -/
def leafMember : Json -> Option Json -> Option (Option Json)
  | .null, old => old.map fun _ => none
  | .object [], some (.object _) => none
  | value, _ => some (some value)

theorem leafChange?_field (value container : Json) (name : String) :
    leafChange? value container (.field name) = atMember name (leafMember value) container := by
  cases value with
  | null => exact drop?_field container name
  | object members =>
      cases members with
      | cons member rest => exact put?_field container name _
      | nil =>
          rw [leafChange?, put?_field]
          cases container with
          | object members =>
              rw [child?, atMember, atMember]
              cases Members.get? members name with
              | none => rfl
              | some old => cases old <;> rfl
          | null | bool | number | string | array => rfl
  | bool | number | string | array => exact put?_field container name _

theorem WellFormed.placeLeaf {document value : Json} (wellFormed : document.WellFormed)
    (added : value.WellFormed) (path : Path) : (document.placeLeaf (path, value)).WellFormed := by
  rw [placeLeaf_eq]
  cases placed : document.updateParent? path (leafChange? value) with
  | none => exact wellFormed
  | some changed =>
      refine WellFormed.updateParent? ?_ wellFormed placed
      intro step inner changed innerWellFormed made
      unfold leafChange? at made
      split at made
      · exact innerWellFormed.drop? made
      · split at made
        · cases made
        · exact innerWellFormed.put? added made
      · exact innerWellFormed.put? added made

/-! ## Leaves below a member -/

/-- A leaf of what a step leads to, seen from in front of the step. -/
def under (step : Step) (leaf : Path × Json) : Path × Json :=
  (⟨step :: leaf.1.steps⟩, leaf.2)

theorem updateParent?_cons (step : Step) {rest : List Step} (further : rest ≠ [])
    (change : Json -> Step -> Option Json) (document : Json) :
    document.updateParent? ⟨step :: rest⟩ change =
      changeChild? step (fun child => child.updateParent? ⟨rest⟩ change) document := by
  rcases List.eq_nil_or_concat' rest with rfl | ⟨front, last, rfl⟩
  · exact absurd rfl further
  · have inner : (fun child : Json => child.updateParent? ⟨front ++ [last]⟩ change) =
        fun child => child.updateAt? front fun container => change container last := by
      funext child
      exact child.updateParent?_eq_updateAt? ⟨front⟩ last change
    rw [inner, ← updateAt?_cons]
    exact document.updateParent?_eq_updateAt? ⟨step :: front⟩ last change

theorem placeLeaf_under {document child : Json} (wellFormed : document.WellFormed) {step : Step}
    (found : document.child? step = some child) {leaf : Path × Json}
    (below : leaf.1.isRoot = false) :
    document.placeLeaf (under step leaf) = document.withChild step (child.placeLeaf leaf) := by
  rcases leaf with ⟨⟨rest⟩, value⟩
  have further : rest ≠ [] := List.isEmpty_eq_false_iff.mp below
  rw [under, placeLeaf_eq, placeLeaf_eq, updateParent?_cons step further,
    getD_changeChild? wellFormed found]

/-- Leaves below a member change that member and nothing else. -/
theorem foldl_placeLeaf_under {step : Step} (leaves : List (Path × Json))
    (each : forall leaf, leaf ∈ leaves -> leaf.1.isRoot = false ∧ leaf.2.WellFormed) :
    forall {document child : Json}, document.WellFormed -> document.child? step = some child ->
      (leaves.map (under step)).foldl placeLeaf document =
        document.withChild step (leaves.foldl placeLeaf child) := by
  induction leaves with
  | nil =>
      intro document child wellFormed found
      exact (withChild_of_child? wellFormed found).symm
  | cons leaf rest ih =>
      intro document child wellFormed found
      rcases List.forall_mem_cons.mp each with ⟨⟨below, leafWellFormed⟩, others⟩
      have placed : (child.placeLeaf leaf).WellFormed :=
        (wellFormed.of_child? found).placeLeaf leafWellFormed leaf.1
      rw [List.map_cons, List.foldl_cons, List.foldl_cons, placeLeaf_under wellFormed found below,
        ih others (wellFormed.withChild step placed) (child?_withChild found _),
        withChild_withChild wellFormed]

end Json

theorem leavesAt_field_eq_map (name : String) (value : Json) :
    leavesAt (Path.root.field name) value =
      (leavesAt .root value).map (Json.under (.field name)) :=
  leavesAt_eq_map value (Path.root.field name)

theorem below_of_mem_leavesAt {value : Json} (wellFormed : value.WellFormed)
    (filled : value.members ≠ []) {leaf : Path × Json} (listed : leaf ∈ leavesAt .root value) :
    leaf.1.isRoot = false ∧ leaf.2.WellFormed := by
  rcases leaf with ⟨path, leaf⟩
  rcases (mem_leavesAt_iff value wellFormed .root path leaf).mp listed with
    ⟨names, place, resolved, bare⟩
  refine ⟨?_, wellFormed.of_resolve? _ resolved⟩
  cases names with
  | nil =>
      cases resolved
      exact absurd bare filled
  | cons name rest => rw [Path.isRoot, place]; rfl

namespace Json

/-! ## Leaves in the order of the patch -/

/-- Wherever a patch has members a document has an object. -/
def Underlies (document patch : Json) : Prop :=
  forall names child, patch.resolve? (fields names) = some child -> child.members ≠ [] ->
    document.FindsObject (Path.ofNames names)

/-- Where a member of a patch has members itself, it finds an object that underlies it. -/
def Ready (child : Json) (old : Option Json) : Prop :=
  child.members ≠ [] -> Exists fun value => old = some value ∧ value.Underlies child

theorem Underlies.ready {document patch child : Json} (underlies : document.Underlies patch)
    (sorted : Members.Sorted patch.members) {name : String}
    (listed : (name, child) ∈ patch.members) : Ready child (document.member? name) := by
  intro filled
  have here : patch.member? name = some child :=
    (Members.get?_eq_some_iff_of_sorted sorted).mpr listed
  have through : forall names, patch.resolve? (fields (name :: names)) =
      child.resolve? (fields names) := resolve?_fields_cons here
  rcases underlies [name] child (through []) filled with ⟨members, found⟩
  rcases exists_member_of_resolve? found with ⟨old, there, _⟩
  refine ⟨old, there, ?_⟩
  intro names inner resolved innerFilled
  rcases underlies (name :: names) inner ((through names).trans resolved) innerFilled with
    ⟨members, found⟩
  exact ⟨members, (resolve?_fields_cons there names).symm.trans found⟩

theorem mergeMembers_cons_assign (name : String) (value : Json) (rest : List (String × Json))
    (members : Members Json) :
    mergeMembers ((name, value) :: rest) members =
      mergeMembers rest (Members.assign name
        (patchedMember (some value) (Members.get? members name)) members) := by
  rw [mergeMembers_cons, patchedMember]
  cases value.isNull <;> rfl

theorem wellFormed_assign_patched {child : Json} (childWellFormed : child.WellFormed)
    {members : Members Json} (wellFormed : (object members).WellFormed) (name : String) :
    (object (Members.assign name (patchedMember (some child) (Members.get? members name))
      members)).WellFormed := by
  have single : (object [(name, child)]).WellFormed :=
    (wellFormed_object_iff _).mpr
      ⟨List.pairwise_singleton _ _, List.forall_mem_singleton.mpr childWellFormed⟩
  have patched := wellFormed_mergePatch _ single _ wellFormed
  rwa [mergePatch_object, mergeMembers_cons_assign, mergeMembers] at patched

/-- Placing the leaves of a patch below one name patches the member of that name. -/
def PlacesMember (name : String) (child : Json) : Prop :=
  forall members : Members Json, (object members).WellFormed ->
    Ready child (Members.get? members name) ->
    (leavesAt (Path.root.field name) child).foldl placeLeaf (.object members) =
      .object (Members.assign name (patchedMember (some child) (Members.get? members name)) members)

theorem foldl_placeLeaf_members (patch : Members Json) (sorted : Members.Sorted patch)
    (each : forall name child, (name, child) ∈ patch -> child.WellFormed ∧ PlacesMember name child) :
    forall members : Members Json, (object members).WellFormed ->
      (forall name child, (name, child) ∈ patch -> Ready child (Members.get? members name)) ->
      (patch.flatMap fun member => leavesAt (Path.root.field member.1) member.2).foldl placeLeaf
          (.object members) =
        .object (mergeMembers patch members) := by
  induction patch with
  | nil =>
      intro members _ _
      rw [mergeMembers]
      rfl
  | cons entry rest ih =>
      rcases entry with ⟨name, child⟩
      intro members wellFormed ready
      have once := (List.nodup_cons.mp sorted.nodup).1
      rcases each name child List.mem_cons_self with ⟨childWellFormed, places⟩
      rw [List.flatMap_cons, List.foldl_append,
        places members wellFormed (ready name child List.mem_cons_self), mergeMembers_cons_assign]
      apply ih (List.pairwise_cons.mp sorted).2
        fun other value listed => each other value (List.mem_cons_of_mem _ listed)
      · exact wellFormed_assign_patched childWellFormed wellFormed name
      · intro other value listed
        have different : other ≠ name := fun same =>
          once (List.mem_map.mpr ⟨_, listed, same⟩)
        rw [Members.get?_assign, if_neg different]
        exact ready other value (List.mem_cons_of_mem _ listed)

/-- The leaves of a patch, in its order, change the members of a document that underlies it as
the patch does, if the leaves below each name do. -/
theorem Underlies.foldl_placeLeaf {members : Members Json} {patch : Json}
    (underlies : (object members).Underlies patch) (wellFormed : (object members).WellFormed)
    (patchWellFormed : patch.WellFormed)
    (each : forall name child, (name, child) ∈ patch.members -> PlacesMember name child) :
    (patch.members.flatMap fun member =>
        leavesAt (Path.root.field member.1) member.2).foldl placeLeaf (.object members) =
      .object (mergeMembers patch.members members) := by
  rcases patchWellFormed.members with ⟨sorted, inside⟩
  exact foldl_placeLeaf_members patch.members sorted
    (fun name child listed => ⟨inside _ listed, each name child listed⟩) members wellFormed
    (fun _ _ listed => underlies.ready sorted listed)

/-- A leaf gives a member the value that the patch gives it, also where the leaf misses. -/
theorem getD_leafMember {leaf : Json} (bare : leaf.members = []) (old : Option Json) :
    (leafMember leaf old).getD old = patchedMember (some leaf) old := by
  cases leaf with
  | null => cases old <;> rfl
  | object members =>
      have empty : members = [] := bare
      subst empty
      cases old with
      | none => rfl
      | some value => cases value <;> rfl
  | bool | number | string | array => rfl

theorem getD_atMember {members : Members Json} (sorted : Members.Sorted members) (name : String)
    (change : Option Json -> Option (Option Json)) :
    (atMember name change (.object members)).getD (.object members) =
      .object (Members.assign name
        ((change (Members.get? members name)).getD (Members.get? members name)) members) := by
  rw [atMember]
  cases change (Members.get? members name) with
  | none => exact congrArg object (Members.assign_get? sorted name).symm
  | some new => rfl

theorem placeLeaf_member {members : Members Json} (wellFormed : (object members).WellFormed)
    (name : String) {leaf : Json} (bare : leaf.members = []) :
    (object members).placeLeaf (Path.root.field name, leaf) =
      .object (Members.assign name (patchedMember (some leaf) (Members.get? members name))
        members) := by
  have sorted := ((wellFormed_object_iff members).mp wellFormed).1
  have atRoot : (object members).withAt Path.root.steps = id := rfl
  rw [placeLeaf_eq, Path.field, updateParent?_child, get?_root, Option.bind_some,
    leafChange?_field, atRoot, Option.map_id_fun, id, getD_atMember sorted, getD_leafMember bare]

theorem placesMember (child : Json) :
    child.WellFormed -> forall name, PlacesMember name child := by
  induction child using membersInduction with
  | step child ih =>
      intro childWellFormed name members wellFormed ready
      by_cases bare : child.members = []
      · rw [leavesAt_of_members_eq_nil _ bare, List.foldl_cons, List.foldl_nil,
          placeLeaf_member wellFormed name bare]
      · rcases ready bare with ⟨old, here, underlies⟩
        rcases underlies [] child (resolve?_nil child) bare with ⟨inner, isObject⟩
        cases (get?_root old).symm.trans isObject
        have found : (object members).child? (.field name) = some (.object inner) := here
        have inPlace : (leavesAt .root child).foldl placeLeaf (.object inner) =
            mergePatch child (.object inner) := by
          rw [leavesAt_of_members_ne_nil _ bare,
            underlies.foldl_placeLeaf (wellFormed.of_child? found) childWellFormed
              (fun other value listed =>
                ih other value listed (childWellFormed.members.2 _ listed) other),
            eq_object_of_members_ne_nil bare, mergePatch_object]
          rfl
        have given : patchedMember (some child) (Members.get? members name) =
            some (mergePatch child (.object inner)) := by
          rw [here, patchedMember, isNull_of_members_ne_nil bare]
          rfl
        -- The leaves are those of the child, so the fold goes on in the member that is there.
        rw [leavesAt_field_eq_map, foldl_placeLeaf_under _
          (fun leaf => below_of_mem_leavesAt childWellFormed bare) wellFormed found, inPlace, given]
        rfl

/-! ## Leaves in any order -/

/-- What is done at paths that part at members does not depend on the order. -/
theorem placeLeaf_comm {first second : Path × Json} (parted : first.1.PartAtMembers second.1)
    {document : Json} (wellFormed : document.WellFormed) :
    (document.placeLeaf first).placeLeaf second = (document.placeLeaf second).placeLeaf first := by
  rcases first with ⟨firstPath, firstValue⟩
  rcases second with ⟨secondPath, secondValue⟩
  rcases parted with ⟨shared, left, right, different, ⟨_, leftWay⟩, ⟨_, rightWay⟩⟩
  rcases exists_atMember_of_updateParent? leftWay
    (fun container => leafChange?_field firstValue container left) with ⟨leftChange, leftEffect⟩
  rcases exists_atMember_of_updateParent? rightWay
    (fun container => leafChange?_field secondValue container right) with
    ⟨rightChange, rightEffect⟩
  simp only [placeLeaf_eq, leftEffect, rightEffect]
  exact (commute_updateAt? (fun _ => commute_atMember different leftChange rightChange) shared
    document wellFormed).same

end Json

theorem Path.PartAtMembers.symm {first second : Path} (parted : first.PartAtMembers second) :
    second.PartAtMembers first := by
  rcases parted with ⟨shared, left, right, different, way, otherWay⟩
  exact ⟨shared, right, left, different.symm, otherWay, way⟩

theorem Path.Precedes.partAtMembers {first second : Path} (before : first.Precedes second) :
    first.PartAtMembers second := by
  rcases before with ⟨shared, lower, higher, ordered, ⟨rest, way⟩, ⟨otherRest, otherWay⟩⟩
  refine ⟨shared, lower, higher, Members.ne_of_compare_eq_lt ordered, ⟨rest, ?_⟩, ⟨otherRest, ?_⟩⟩
  · rw [← way, List.append_assoc, List.singleton_append]
  · rw [← otherWay, List.append_assoc, List.singleton_append]

/-- The paths of two leaves of a patch part at members. -/
theorem partAtMembers_of_mem_patchLeaves {patch : Members Json}
    (wellFormed : (Json.object patch).WellFormed) {first second : Path × Json}
    (firstListed : first ∈ patchLeaves patch) (secondListed : second ∈ patchLeaves patch)
    (different : first ≠ second) : first.1.PartAtMembers second.1 := by
  have parted : (patchLeaves patch).Pairwise fun first second => first.1.PartAtMembers second.1 :=
    (pairwise_patchLeaves wellFormed).imp Path.Precedes.partAtMembers
  have symmetric : Std.Symm fun first second : Path × Json => first.1.PartAtMembers second.1 :=
    ⟨fun _ _ => Path.PartAtMembers.symm⟩
  exact parted.forall firstListed secondListed different

/-- Steps that keep a property and do not depend on their order where it holds make the same of
a state in every order. -/
theorem foldl_eq_of_perm {State Item : Type} {step : State -> Item -> State}
    {holds : State -> Prop} {left right : List Item} (reordered : left.Perm right) :
    (forall item, item ∈ left -> forall state, holds state -> holds (step state item)) ->
    (forall first, first ∈ left -> forall second, second ∈ left -> forall state, holds state ->
      step (step state first) second = step (step state second) first) ->
    forall state, holds state -> left.foldl step state = right.foldl step state := by
  induction reordered with
  | nil => exact fun _ _ _ _ => rfl
  | cons item _ ih =>
      intro keeps commute state held
      rw [List.foldl_cons, List.foldl_cons]
      exact ih (fun other listed => keeps other (List.mem_cons_of_mem _ listed))
        (fun first listed second also => commute first (List.mem_cons_of_mem _ listed) second
          (List.mem_cons_of_mem _ also)) _ (keeps item List.mem_cons_self state held)
  | swap first second rest =>
      intro _ commute state held
      simp only [List.foldl_cons]
      rw [commute second List.mem_cons_self first (List.mem_cons_of_mem _ List.mem_cons_self)
        state held]
  | trans reorderedFirst _ ih ihSecond =>
      intro keeps commute state held
      rw [ih keeps commute state held]
      exact ihSecond (fun item listed => keeps item (reorderedFirst.mem_iff.mpr listed))
        (fun first listed second also => commute first (reorderedFirst.mem_iff.mpr listed) second
          (reorderedFirst.mem_iff.mpr also)) state held

/-- Objects above all leaves of a patch are objects wherever the patch has members. -/
theorem underlies_of_above_leaves {patch members : Members Json}
    (patchWellFormed : (Json.object patch).WellFormed)
    (above : forall leaf prior, leaf ∈ patchLeaves patch -> leaf.1.startsWith prior = true ->
      prior ≠ leaf.1 -> (Json.object members).FindsObject prior) :
    (Json.object members).Underlies (.object patch) := by
  intro names child resolved filled
  rcases Json.exists_leaf child with ⟨rest, leaf, below, bare⟩
  have further : rest ≠ [] := by
    rintro rfl
    cases below
    exact filled bare
  have within : (Json.object patch).resolve? (fields (names ++ rest)) = some leaf := by
    rw [Json.fields_append, Json.resolve?_append, resolved, Option.bind_some, below]
  have listed : (Path.ofNames (names ++ rest), leaf) ∈ patchLeaves patch :=
    (mem_patchLeaves_iff patchWellFormed _ _).mpr
      ⟨names ++ rest, List.append_ne_nil_of_right_ne_nil _ further, rfl, within, bare⟩
  refine above _ (Path.ofNames names) listed
    (Path.startsWith_ofNames (List.prefix_append names rest)) ?_
  intro same
  have steps : fields names = fields names ++ fields rest :=
    (congrArg Path.steps same).trans (Json.fields_append names rest)
  exact further (List.map_eq_nil_iff.mp (List.self_eq_append_right.mp steps))

/-- A patch makes of a document what its leaves make of it one after the other, in any order, if
the document has objects above all of them. -/
theorem mergePatch_eq_foldl_leaves {patch members : Members Json}
    (patchWellFormed : (Json.object patch).WellFormed)
    (wellFormed : (Json.object members).WellFormed)
    (above : forall leaf prior, leaf ∈ patchLeaves patch -> leaf.1.startsWith prior = true ->
      prior ≠ leaf.1 -> (Json.object members).FindsObject prior)
    {leaves : List (Path × Json)} (reordered : leaves.Perm (patchLeaves patch)) :
    Json.mergePatch (.object patch) (.object members) =
      leaves.foldl Json.placeLeaf (.object members) := by
  have underlies := underlies_of_above_leaves patchWellFormed above
  have inOrder : Json.mergePatch (.object patch) (.object members) =
      (patchLeaves patch).foldl Json.placeLeaf (.object members) := by
    rw [Json.mergePatch_object, patchLeaves_eq_flatMap]
    exact (underlies.foldl_placeLeaf wellFormed patchWellFormed fun name child listed =>
      Json.placesMember child (patchWellFormed.members.2 _ listed) name).symm
  rw [inOrder]
  symm
  apply foldl_eq_of_perm reordered _ _ _ wellFormed
  · intro leaf listed document documentWellFormed
    rcases (mem_patchLeaves_iff patchWellFormed _ _).mp (reordered.mem_iff.mp listed) with
      ⟨_, _, _, resolved, _⟩
    exact documentWellFormed.placeLeaf (patchWellFormed.of_resolve? _ resolved) leaf.1
  · intro first firstListed second secondListed document documentWellFormed
    by_cases same : first = second
    · rw [same]
    · exact Json.placeLeaf_comm (partAtMembers_of_mem_patchLeaves patchWellFormed
        (reordered.mem_iff.mp firstListed) (reordered.mem_iff.mp secondListed) same)
        documentWellFormed

/-- A patch that removes, asks for an object and writes, all below one name. -/
def nestedPatch : Members Json :=
  [("a", .object [("b", .null), ("c", .object []), ("d", .bool true)])]

/-- An object below that name, with a member to be removed and an object to be kept. -/
def nestedMembers : Members Json :=
  [("a", .object [("b", .string "x"), ("c", .object [("e", .null)])]), ("f", .null)]

theorem patchLeaves_nestedPatch : patchLeaves nestedPatch =
    [(Path.ofNames ["a", "b"], .null), (Path.ofNames ["a", "c"], .object []),
      (Path.ofNames ["a", "d"], .bool true)] := by
  cbv

/-- The leaves in reverse order. -/
theorem mergePatch_eq_foldl_leaves_reversed :
    (Json.object nestedPatch).WellFormed ∧ (Json.object nestedMembers).WellFormed ∧
    Json.mergePatch (.object nestedPatch) (.object nestedMembers) =
      .object [("a", .object [("c", .object [("e", .null)]), ("d", .bool true)]), ("f", .null)] ∧
    Json.mergePatch (.object nestedPatch) (.object nestedMembers) =
      (patchLeaves nestedPatch).reverse.foldl Json.placeLeaf (.object nestedMembers) := by
  have patchWellFormed : (Json.object nestedPatch).WellFormed := by decide
  have wellFormed : (Json.object nestedMembers).WellFormed := by decide
  refine ⟨patchWellFormed, wellFormed, by cbv,
    mergePatch_eq_foldl_leaves patchWellFormed wellFormed ?_ (List.reverse_perm _)⟩
  intro leaf prior listed starts proper
  have belowA : Exists fun name => leaf.1 = Path.ofNames ["a", name] := by
    rw [patchLeaves_nestedPatch] at listed
    simp only [List.mem_cons, List.not_mem_nil, or_false] at listed
    rcases listed with rfl | rfl | rfl
    · exact ⟨"b", rfl⟩
    · exact ⟨"c", rfl⟩
    · exact ⟨"d", rfl⟩
  rcases belowA with ⟨name, place⟩
  rw [place] at starts proper
  rcases Path.exists_front_of_startsWith starts proper with ⟨front, back, rfl, further, together⟩
  -- Above a leaf there are only the root and the path of the one name.
  cases front with
  | nil => exact ⟨_, rfl⟩
  | cons first more =>
      rcases List.cons.inj together with ⟨rfl, inner⟩
      cases more with
      | nil => exact ⟨_, rfl⟩
      | cons second rest =>
          have ended := (List.cons.inj inner).2
          exact absurd (List.append_eq_nil_iff.mp ended.symm).2 further

end Emend
