import Mathlib
import Emend.Proofs.Update.Leaves

namespace Emend

/-!
# What a merge patch does at its leaves

The notes take the leaves of a patch for the places at which it writes.  The
store does not look at leaves: it goes through patch and document together.
Below, the two are shown to agree for any document, whatever stands where the
patch expects objects.

A path of names is followed through patch and document at once.  While the
patch has members the document counts as an object, with nothing in it if it
is none; so the value under a name that the document lacks can be taken to be
null.
-/

namespace Json

/-! ## Along the names of a path -/

/-- A longer path finds nothing in null, as it finds nothing below a missing
member. -/
theorem resolve?_getD_null (document : Json) (name next : String) (rest : List Step) :
    ((document.member? name).getD .null).resolve? (.field next :: rest) =
      document.resolve? (.field name :: .field next :: rest) := by
  rw [resolve?_field document]
  cases document.member? name with
  | none => rfl
  | some child => rfl

theorem isNull_of_members_ne_nil {value : Json} (filled : value.members ≠ []) :
    value.isNull = false := by
  rw [eq_object_of_members_ne_nil filled]
  rfl

/-- Where the patch has members the document is patched further. -/
theorem resolve?_mergePatch_filled {patch : Members Json} (sorted : Members.Sorted patch)
    (document : Json) {name : String} {child : Json}
    (here : Members.get? patch name = some child) (filled : child.members ≠ [])
    (rest : List Step) :
    (mergePatch (.object patch) document).resolve? (.field name :: rest) =
      (mergePatch (.object child.members) ((document.member? name).getD .null)).resolve? rest := by
  rw [resolve?_mergePatch sorted, here, patchedMember,
    if_neg (by rw [isNull_of_members_ne_nil filled]; exact Bool.false_ne_true),
    ← eq_object_of_members_ne_nil filled]
  rfl

theorem wellFormed_members_of_get? {patch : Members Json} {name : String} {child : Json}
    (wellFormed : (object patch).WellFormed) (here : Members.get? patch name = some child)
    (filled : child.members ≠ []) : (object child.members).WellFormed := by
  rw [← eq_object_of_members_ne_nil filled]
  exact wellFormed.of_member? here

/-- Where the patch holds a value the document is patched with that value
alone; where it holds null nothing is left. -/
theorem resolve?_mergePatch_held {held : Json} (names : List String) :
    forall (patch : Members Json) (document : Json), (object patch).WellFormed -> names ≠ [] ->
      (object patch).resolve? (fields names) = some held ->
      (mergePatch (.object patch) document).resolve? (fields names) =
        if held.isNull then none
        else some (mergePatch held ((document.resolve? (fields names)).getD .null)) := by
  induction names with
  | nil =>
      intro patch document _ nonempty _
      exact False.elim (nonempty rfl)
  | cons name rest ih =>
      intro patch document wellFormed _ resolved
      rcases exists_member_of_resolve? resolved with ⟨child, here, below⟩
      have sorted : Members.Sorted patch := wellFormed.members.1
      cases rest with
      | nil =>
          rw [fields_nil, resolve?_nil] at below
          cases below
          have old : document.resolve? (fields [name]) = document.member? name := by
            rw [fields_cons, fields_nil, resolve?_field]
            cases document.member? name with
            | none => rfl
            | some child => exact resolve?_nil child
          have found : Members.get? patch name = some held := here
          rw [old, fields_cons, fields_nil, resolve?_mergePatch sorted, found, patchedMember]
          cases held.isNull with
          | true => rfl
          | false => rfl
      | cons next more =>
          have filled : child.members ≠ [] := members_ne_nil_of_resolve? below
          have same : child = .object child.members := eq_object_of_members_ne_nil filled
          rw [fields_cons, resolve?_mergePatch_filled sorted document here filled,
            ih child.members _ (wellFormed_members_of_get? wellFormed here filled)
              (List.cons_ne_nil _ _) (same ▸ below),
            fields_cons, resolve?_getD_null]

/-- Above a place that the patch holds there is an object. -/
theorem resolve?_mergePatch_above {held : Json} {back : List String} (proper : back ≠ [])
    (front : List String) :
    forall (patch : Members Json) (document : Json), (object patch).WellFormed ->
      (object patch).resolve? (fields (front ++ back)) = some held ->
      Exists fun members =>
        (mergePatch (.object patch) document).resolve? (fields front) = some (.object members) := by
  induction front with
  | nil =>
      intro patch document _ _
      rw [mergePatch_object]
      exact ⟨_, resolve?_nil _⟩
  | cons name rest ih =>
      intro patch document wellFormed resolved
      rw [List.cons_append] at resolved
      rcases exists_member_of_resolve? resolved with ⟨child, here, below⟩
      have filled : child.members ≠ [] := by
        cases further : rest ++ back with
        | nil => exact False.elim (proper (List.append_eq_nil_iff.mp further).2)
        | cons next more =>
            rw [further] at below
            exact members_ne_nil_of_resolve? below
      have same : child = .object child.members := eq_object_of_members_ne_nil filled
      have sorted : Members.Sorted patch := wellFormed.members.1
      rw [fields_cons, resolve?_mergePatch_filled sorted document here filled]
      exact ih child.members _ (wellFormed_members_of_get? wellFormed here filled) (same ▸ below)

/-! ## Away from the leaves -/

/-- Every value holds a leaf, if only itself. -/
theorem exists_leaf (value : Json) :
    Exists fun names => Exists fun leaf =>
      value.resolve? (fields names) = some leaf ∧ leaf.members = [] := by
  induction value using membersInduction with
  | step value ih =>
      cases listing : value.members with
      | nil => exact ⟨[], value, resolve?_nil value, listing⟩
      | cons member others =>
          rcases member with ⟨name, child⟩
          have here : value.member? name = some child := by
            rw [member?, listing, Members.get?_cons_same]
          have inside : (name, child) ∈ value.members := by
            rw [listing]
            exact List.mem_cons_self
          rcases ih name child inside with ⟨names, leaf, resolved, leafBare⟩
          refine ⟨name :: names, leaf, ?_, leafBare⟩
          rw [resolve?_fields_cons here]
          exact resolved

/-- No leaf of a patch lies on the way of names or behind it. -/
def AwayFromLeaves (patch : Json) (names : List String) : Prop :=
  forall leafNames leaf, leafNames ≠ [] -> patch.resolve? (fields leafNames) = some leaf ->
    leaf.members = [] -> ¬ leafNames <+: names ∧ ¬ names <+: leafNames

theorem AwayFromLeaves.below {patch child : Json} {name : String} {rest : List String}
    (away : patch.AwayFromLeaves (name :: rest)) (here : patch.member? name = some child)
    {leafNames : List String} {leaf : Json} (resolved : child.resolve? (fields leafNames) = some leaf)
    (bare : leaf.members = []) : ¬ leafNames <+: rest ∧ ¬ rest <+: leafNames := by
  have within : patch.resolve? (fields (name :: leafNames)) = some leaf := by
    rw [resolve?_fields_cons here]
    exact resolved
  have apart := away (name :: leafNames) leaf (List.cons_ne_nil _ _) within bare
  constructor
  · intro before
    exact apart.1 (List.cons_prefix_cons.mpr ⟨rfl, before⟩)
  · intro behind
    exact apart.2 (List.cons_prefix_cons.mpr ⟨rfl, behind⟩)

/-- A way that avoids the leaves goes on wherever the patch does. -/
theorem AwayFromLeaves.continues {patch child : Json} {name : String} {rest : List String}
    (away : patch.AwayFromLeaves (name :: rest)) (here : patch.member? name = some child) :
    child.members ≠ [] ∧ rest ≠ [] := by
  have filled : child.members ≠ [] := by
    intro bare
    have whole : child.resolve? (fields []) = some child := resolve?_nil child
    exact (away.below here whole bare).1 List.nil_prefix
  refine ⟨filled, ?_⟩
  intro ended
  subst rest
  rcases exists_leaf child with ⟨leafNames, leaf, resolved, bare⟩
  exact (away.below here resolved bare).2 List.nil_prefix

/-- The patch and a way that avoids its leaves part at a name that the patch
does not have, and from there on the document is as it was. -/
theorem resolve?_mergePatch_away (names : List String) :
    forall (patch : Members Json) (document : Json), (object patch).WellFormed -> names ≠ [] ->
      (object patch).AwayFromLeaves names ->
      (mergePatch (.object patch) document).resolve? (fields names) =
        document.resolve? (fields names) := by
  induction names with
  | nil =>
      intro patch document _ nonempty _
      exact False.elim (nonempty rfl)
  | cons name rest ih =>
      intro patch document wellFormed _ away
      have sorted : Members.Sorted patch := wellFormed.members.1
      rw [fields_cons]
      cases here : Members.get? patch name with
      | none =>
          rw [resolve?_mergePatch sorted, here, resolve?_field]
          rfl
      | some child =>
          rcases away.continues here with ⟨filled, further⟩
          have same : child = .object child.members := eq_object_of_members_ne_nil filled
          rw [resolve?_mergePatch_filled sorted document here filled,
            ih child.members _ (wellFormed_members_of_get? wellFormed here filled) further
              (same ▸ fun _ _ _ resolved bare => away.below here resolved bare)]
          cases rest with
          | nil => exact False.elim (further rfl)
          | cons next more => exact resolve?_getD_null document name next (fields more)

end Json

/-! ## The leaves and the store -/

open Json (fields)

/-- What holds of a document before and after a patch, told by the leaves of
the patch. -/
structure AgreesWithLeaves (patch : Members Json) (before after : Json) : Prop where
  /-- Nothing is left where the patch has null. -/
  removed : forall path, (path, .null) ∈ patchLeaves patch -> after.get? path = none
  /-- Scalars and arrays take the place of what was there. -/
  replaced : forall path leaf, (path, leaf) ∈ patchLeaves patch -> leaf ≠ .null ->
    leaf.kind ≠ .object -> after.get? path = some leaf
  /-- An empty object leaves an object as it was. -/
  kept : forall path members, (path, .object []) ∈ patchLeaves patch ->
    before.get? path = some (.object members) -> after.get? path = some (.object members)
  /-- An empty object takes the place of anything else. -/
  emptied : forall path, (path, .object []) ∈ patchLeaves patch ->
    (forall members, before.get? path ≠ some (.object members)) ->
    after.get? path = some (.object [])
  /-- Above the leaves there are objects. -/
  above : forall path leaf prior, (path, leaf) ∈ patchLeaves patch ->
    path.startsWith prior = true -> prior ≠ path ->
    Exists fun members => after.get? prior = some (.object members)
  /-- Whatever lies neither above nor below a leaf is as it was. -/
  elsewhere : forall path, path.isRoot = false -> (forall step, step ∈ path.steps ->
      step.isIndex = false) ->
    (forall leaf, leaf ∈ patchLeaves patch ->
      leaf.1.startsWith path = false ∧ path.startsWith leaf.1 = false) ->
    after.get? path = before.get? path

/-- Steps that are no indices go through members. -/
theorem exists_names_of_no_index (steps : List Step) :
    (forall step, step ∈ steps -> step.isIndex = false) ->
      Exists fun names => steps = fields names := by
  induction steps with
  | nil => exact fun _ => ⟨[], rfl⟩
  | cons step rest ih =>
      intro none
      rcases ih fun other listed => none other (List.mem_cons_of_mem _ listed) with ⟨names, same⟩
      cases step with
      | field name => exact ⟨name :: names, congrArg (Step.field name :: ·) same⟩
      | index position => exact Bool.noConfusion (none (.index position) List.mem_cons_self)

theorem Path.startsWith_iff (path other : Path) :
    path.startsWith other = true ↔ other.steps <+: path.steps :=
  List.isPrefixOf_iff_prefix

theorem Path.startsWith_ofNames {names others : List String} (before : others <+: names) :
    (ofNames names).startsWith (ofNames others) = true :=
  (startsWith_iff _ _).mpr (before.map Step.field)

/-- What lies above a path of names is itself a path of names. -/
theorem Path.exists_front_of_startsWith {names : List String} {prior : Path}
    (starts : (ofNames names).startsWith prior = true) (proper : prior ≠ ofNames names) :
    Exists fun front => Exists fun back =>
      prior = ofNames front ∧ back ≠ [] ∧ names = front ++ back := by
  rcases List.prefix_map_iff.mp ((startsWith_iff _ prior).mp starts) with
    ⟨front, ⟨back, together⟩, isPrior⟩
  have same : prior = ofNames front := congrArg Path.mk isPrior
  refine ⟨front, back, same, ?_, together.symm⟩
  intro none
  rw [none, List.append_nil] at together
  exact proper (together ▸ same)

/-- A path of names neither above nor below any leaf avoids the leaves. -/
theorem awayFromLeaves_of_apart {patch : Members Json}
    (wellFormed : (Json.object patch).WellFormed) {names : List String}
    (apart : forall leaf, leaf ∈ patchLeaves patch ->
      leaf.1.startsWith (Path.ofNames names) = false ∧
        (Path.ofNames names).startsWith leaf.1 = false) :
    (Json.object patch).AwayFromLeaves names := by
  intro leafNames leaf nonempty resolved bare
  have listed : (Path.ofNames leafNames, leaf) ∈ patchLeaves patch :=
    (mem_patchLeaves_iff wellFormed _ leaf).mpr ⟨leafNames, nonempty, rfl, resolved, bare⟩
  have separate := apart _ listed
  constructor
  · intro before
    rw [Path.startsWith_ofNames before] at separate
    cases separate.2
  · intro behind
    rw [Path.startsWith_ofNames behind] at separate
    cases separate.1

theorem get?_mergePatch_leaf {patch : Members Json} (wellFormed : (Json.object patch).WellFormed)
    (document : Json) {path : Path} {leaf : Json} (listed : (path, leaf) ∈ patchLeaves patch) :
    (Json.mergePatch (.object patch) document).get? path =
      if leaf.isNull then none
      else some (Json.mergePatch leaf ((document.get? path).getD .null)) := by
  rcases (mem_patchLeaves_iff wellFormed path leaf).mp listed with
    ⟨names, nonempty, place, resolved, _⟩
  subst path
  exact Json.resolve?_mergePatch_held names patch document wellFormed nonempty resolved

/-- What is no object counts as one without members. -/
theorem members_getD_eq_nil {found : Option Json}
    (different : forall members, found ≠ some (.object members)) :
    (found.getD .null).members = [] := by
  cases found with
  | none => rfl
  | some value =>
      cases value with
      | object members => exact False.elim (different members rfl)
      | null => rfl
      | bool value => rfl
      | number value => rfl
      | string value => rfl
      | array items => rfl

theorem agreesWithLeaves_mergePatch (patch : Members Json) (document : Json)
    (wellFormed : (Json.object patch).WellFormed) :
    AgreesWithLeaves patch document (Json.mergePatch (.object patch) document) where
  removed path listed := get?_mergePatch_leaf wellFormed document listed
  replaced path leaf listed notNull noObject := by
    have given : leaf.isNull = false := by
      cases leaf with
      | null => exact False.elim (notNull rfl)
      | object | bool | number | string | array => rfl
    rw [get?_mergePatch_leaf wellFormed document listed, given,
      Json.mergePatch_of_kind_ne_object noObject]
    rfl
  kept path members listed found := by
    rw [get?_mergePatch_leaf wellFormed document listed, found, Json.mergePatch_empty]
    rfl
  emptied path listed different := by
    rw [get?_mergePatch_leaf wellFormed document listed, Json.mergePatch_empty,
      members_getD_eq_nil different]
    rfl
  above path leaf prior listed starts proper := by
    rcases (mem_patchLeaves_iff wellFormed path leaf).mp listed with
      ⟨names, _, place, resolved, _⟩
    subst path
    rcases Path.exists_front_of_startsWith starts proper with
      ⟨front, back, isPrior, proceeds, together⟩
    subst prior
    rw [together] at resolved
    exact Json.resolve?_mergePatch_above proceeds front patch document wellFormed resolved
  elsewhere path below noIndex apart := by
    rcases exists_names_of_no_index path.steps noIndex with ⟨names, same⟩
    have isPath : path = Path.ofNames names := congrArg Path.mk same
    subst path
    have nonempty : names ≠ [] := by
      intro none
      subst names
      cases below
    exact Json.resolve?_mergePatch_away names patch document wellFormed nonempty
      (awayFromLeaves_of_apart wellFormed apart)

/-- A patch with each kind of leaf, two of them below a name under which the
document has no object. -/
def mixedPatch : Members Json :=
  [("a", .object [("b", .null), ("c", .object [("d", .bool true)])]), ("e", .null),
    ("f", .object [])]

def patchedSample : Json :=
  .object [("a", .array [.null]), ("e", .string "x"), ("f", .object [("g", .null)]),
    ("h", .object [("a", .null)])]

theorem agreesWithLeaves_mixedPatch :
    Json.mergePatch (.object mixedPatch) patchedSample =
      .object [("a", .object [("c", .object [("d", .bool true)])]),
        ("f", .object [("g", .null)]), ("h", .object [("a", .null)])] ∧
    AgreesWithLeaves mixedPatch patchedSample
      (.object [("a", .object [("c", .object [("d", .bool true)])]),
        ("f", .object [("g", .null)]), ("h", .object [("a", .null)])]) := by
  have merged : Json.mergePatch (.object mixedPatch) patchedSample =
      .object [("a", .object [("c", .object [("d", .bool true)])]),
        ("f", .object [("g", .null)]), ("h", .object [("a", .null)])] := by cbv
  have wellFormed : (Json.object mixedPatch).WellFormed := by
    simp only [mixedPatch, Json.WellFormed, Json.WellFormedMembers, Members.Sorted, and_true]
    decide
  refine ⟨merged, ?_⟩
  rw [← merged]
  exact agreesWithLeaves_mergePatch mixedPatch patchedSample wellFormed

end Emend
