import Mathlib
import Emend.Operation.Effect
import Emend.Proofs.Document.Overwrite
import Emend.Proofs.Statement.Compile

namespace Emend

/-!
# When an override note is right

A note says that one operation overrides an earlier one if both name the same
path.  Right behind each other, does the second one really undo what the first
one wrote?  At a member it does.  At an element it need not, because the path is
not the same place any more once the first operation has moved the elements:
writing past the end adds an element, and removing one moves those behind it.
-/

/-! ## Writings -/

/-- What an operation does in the container of its path: it writes, or writes
only where there is something, or removes. -/
inductive Writing where
  | put (value : Json)
  | rewrite (value : Json)
  | drop

namespace Writing

/-- The container after the writing, where it does not miss. -/
def into (writing : Writing) (step : Step) (container : Json) : Option Json :=
  match writing with
  | .put value => container.put? step value
  | .rewrite value => Json.changeChild? step (fun _ => some value) container
  | .drop => container.drop? step

/-- Whether the writing keeps every element where it is. -/
def isRewrite : Writing -> Bool
  | .rewrite _ => true
  | .put _ | .drop => false

/-- Whether the writing may add something. -/
def isPut : Writing -> Bool
  | .put _ => true
  | .rewrite _ | .drop => false

/-! ## Members -/

/-- The members of an object after the writing.  What it misses stays. -/
def members (writing : Writing) (name : String) (members : Members Json) : Members Json :=
  match writing with
  | .put value => Members.insert name value members
  | .rewrite value =>
      if (Members.get? members name).isSome then Members.insert name value members else members
  | .drop => Members.erase name members

theorem getD_into_field (writing : Writing) (name : String) (members : Members Json) :
    (writing.into (.field name) (.object members)).getD (.object members) =
      .object (writing.members name members) := by
  cases writing with
  | put value => rfl
  | rewrite value =>
      rw [into, Writing.members, Json.changeChild?, Json.child?]
      cases Members.get? members name <;> rfl
  | drop =>
      rw [into, Writing.members, Json.drop?]
      cases found : Members.get? members name with
      | none =>
          rw [Members.erase_of_get? found]
          rfl
      | some value => rfl

theorem members_members {first second : Writing} (replaces : second.isRewrite = false)
    (name : String) {members : Members Json} (sorted : Members.Sorted members) :
    second.members name (first.members name members) = second.members name members := by
  cases second with
  | put new =>
      cases first with
      | put value => exact Members.insert_insert sorted name value new
      | rewrite value =>
          simp only [Writing.members]
          split
          · exact Members.insert_insert sorted name value new
          · rfl
      | drop => exact Members.insert_erase sorted name new
  | rewrite new => cases replaces
  | drop =>
      cases first with
      | put value => exact Members.erase_insert sorted name value
      | rewrite value =>
          simp only [Writing.members]
          split
          · exact Members.erase_insert sorted name value
          · rfl
      | drop => exact Members.erase_erase name

/-! ## Elements -/

/-- The elements of an array after the writing.  What it misses stays. -/
def items (writing : Writing) (position : Nat) (items : List Json) : List Json :=
  match writing with
  | .put value =>
      if position < items.length then items.set position value else items ++ [value]
  | .rewrite value => items.set position value
  | .drop => items.eraseIdx position

theorem getD_into_index (writing : Writing) (position : UInt32) (items : List Json) :
    (writing.into (.index position) (.array items)).getD (.array items) =
      .array (writing.items position.toNat items) := by
  cases writing with
  | put value =>
      rw [into, Writing.items, Json.put?]
      split <;> rfl
  | rewrite value =>
      rw [into, Writing.items, Json.changeChild?, Json.child?]
      cases found : items[position.toNat]? with
      | none =>
          rw [List.set_eq_of_length_le (List.getElem?_eq_none_iff.mp found)]
          rfl
      | some old => rfl
  | drop =>
      rw [into, Writing.items, Json.drop?]
      split
      · rfl
      · next outside =>
          rw [List.eraseIdx_of_length_le (Nat.not_lt.mp outside)]
          rfl

/-- After a writing that moves no element the same index is the same place. -/
theorem items_items {first second : Writing} {position : Nat} (replaces : second.isRewrite = false)
    (unmoved : first.isRewrite = true ∨ first.isPut = true ∧ position = 0) (items : List Json) :
    second.items position (first.items position items) = second.items position items := by
  cases first with
  | put value =>
      have start : position = 0 := by
        rcases unmoved with impossible | ⟨_, start⟩
        · cases impossible
        · exact start
      subst start
      cases second with
      | put new => cases items <;> rfl
      | rewrite new => cases replaces
      | drop => cases items <;> rfl
  | rewrite value =>
      cases second with
      | put new =>
          simp only [Writing.items, List.length_set, List.set_set]
          split
          · rfl
          · next outside => rw [List.set_eq_of_length_le (Nat.not_lt.mp outside)]
      | rewrite new => cases replaces
      | drop => exact List.eraseIdx_set_eq
  | drop =>
      rcases unmoved with impossible | ⟨impossible, _⟩
      · cases impossible
      · cases impossible

/-- Otherwise there is an array that shows the difference by its length. -/
theorem exists_items_ne {first second : Writing} {position : Nat}
    (replaces : second.isRewrite = false)
    (moved : ¬(first.isRewrite = true ∨ first.isPut = true ∧ position = 0)) :
    Exists fun count =>
      second.items position (first.items position (List.replicate count .null)) ≠
        second.items position (List.replicate count .null) := by
  cases first with
  | put value =>
      -- An empty array: what the first one adds stands at another index.
      have behind : 0 < position := by
        apply Nat.pos_of_ne_zero
        intro start
        exact moved (Or.inr ⟨rfl, start⟩)
      refine ⟨0, fun same => ?_⟩
      have lengths := congrArg List.length same
      cases second with
      | put new => simp [Writing.items, Nat.not_lt.mpr behind] at lengths
      | rewrite new => cases replaces
      | drop => simp [Writing.items, List.length_eraseIdx, Nat.not_lt.mpr behind] at lengths
  | rewrite value => exact False.elim (moved (Or.inl rfl))
  | drop =>
      -- One element behind the index: it moves to the index when the first goes.
      refine ⟨position + 2, fun same => ?_⟩
      have lengths := congrArg List.length same
      cases second with
      | put new => simp [Writing.items, List.length_eraseIdx] at lengths
      | rewrite new => cases replaces
      | drop => simp [Writing.items, List.length_eraseIdx] at lengths

/-! ## Containers -/

/-- Whether a step can be taken in a container. -/
def fits : Step -> Json -> Bool
  | .field _, .object _ => true
  | .index _, .array _ => true
  | _, _ => false

theorem into_of_misfit {container : Json} {step : Step} (misfit : fits step container = false)
    (writing : Writing) : writing.into step container = none := by
  cases container with
  | object members =>
      cases step with
      | field name => cases misfit
      | index position => cases writing <;> rfl
  | array items =>
      cases step with
      | field name => cases writing <;> rfl
      | index position => cases misfit
  | null | bool | number | string => cases writing <;> cases step <;> rfl

theorem absorbs_into_of_misfit {container : Json} {step : Step}
    (misfit : fits step container = false) (first second : Writing) :
    Json.Absorbs (first.into step) (second.into step) container := by
  rw [Json.Absorbs, into_of_misfit misfit first, Option.getD_none]

/-- In every container one writing absorbs the other exactly if the step is a name,
or the earlier writing moves no element. -/
theorem absorbs_into_iff {first second : Writing} (replaces : second.isRewrite = false)
    (last : Step) :
    (forall container : Json, container.WellFormed ->
      Json.Absorbs (first.into last) (second.into last) container) ↔
      last.isIndex = false ∨ first.isRewrite = true ∨ first.isPut = true ∧ last = .index 0 := by
  cases last with
  | field name =>
      refine ⟨fun _ => Or.inl rfl, fun _ container wellFormed => ?_⟩
      cases container with
      | object members =>
          rw [Json.wellFormed_object_iff] at wellFormed
          rw [Json.Absorbs, getD_into_field, getD_into_field, getD_into_field,
            members_members replaces name wellFormed.1]
      | null | bool | number | string | array =>
          exact absorbs_into_of_misfit rfl first second
  | index position =>
      have start : Step.index position = .index 0 ↔ position.toNat = 0 := by
        rw [Step.index.injEq, ← UInt32.toNat_inj]
        rfl
      rw [start]
      constructor
      · intro absorbed
        refine Or.inr (Classical.byContradiction fun moved => ?_)
        rcases exists_items_ne replaces moved with ⟨count, different⟩
        have documents : (Json.array (List.replicate count .null)).WellFormed := by
          rw [Json.WellFormed, Json.wellFormedItems_iff]
          intro item listed
          rw [List.eq_of_mem_replicate listed]
          trivial
        have same := absorbed _ documents
        rw [Json.Absorbs, getD_into_index, getD_into_index, getD_into_index] at same
        exact different (Json.array.inj same)
      · intro unmoved container _
        have unmovedHere : first.isRewrite = true ∨ first.isPut = true ∧ position.toNat = 0 := by
          rcases unmoved with impossible | unmoved
          · cases impossible
          · exact unmoved
        cases container with
        | array items =>
            rw [Json.Absorbs, getD_into_index, getD_into_index, getD_into_index,
              items_items replaces unmovedHere]
        | null | bool | number | string | object =>
            exact absorbs_into_of_misfit rfl first second

end Writing

/-! ## Operations -/

namespace Operation

/-- What an operation does in the container of its path, if it replaces what
stands there. -/
def writing? : Operation -> Option Writing
  | .set _ (.present value) => some (.put value)
  | .set _ .absent | .unset _ => some .drop
  | .change _ value => some (.rewrite value.toJson)
  | .patch _ | .arrayInsert _ _ | .arrayAppend _ _ => none

theorem exists_writing {operation : Operation} (replaces : History.replaces operation.kind = true) :
    Exists fun writing => operation.writing? = some writing := by
  cases operation with
  | set path value => cases value <;> exact ⟨_, rfl⟩
  | change path value => exact ⟨_, rfl⟩
  | unset path => exact ⟨_, rfl⟩
  | patch | arrayInsert | arrayAppend => cases replaces

theorem isRewrite_iff {operation : Operation} {writing : Writing}
    (writes : operation.writing? = some writing) :
    writing.isRewrite = true ↔ operation.kind = .change := by
  cases operation with
  | set path value => cases value <;> cases writes <;> simp [Writing.isRewrite, kind]
  | change path value =>
      cases writes
      simp [Writing.isRewrite, kind]
  | unset path =>
      cases writes
      simp [Writing.isRewrite, kind]
  | patch | arrayInsert | arrayAppend => cases writes

theorem isPut_iff {operation : Operation} {writing : Writing}
    (writes : operation.writing? = some writing) :
    writing.isPut = true ↔
      operation.kind = .set ∧ operation.payload?.any Payload.isAbsent = false := by
  cases operation with
  | set path value =>
      cases value <;> cases writes <;> simp [Writing.isPut, kind, payload?, Payload.isAbsent]
  | change path value =>
      cases writes
      simp [Writing.isPut, kind]
  | unset path =>
      cases writes
      simp [Writing.isPut, kind]
  | patch | arrayInsert | arrayAppend => cases writes

theorem effect?_of_writing {operation : Operation} {writing : Writing}
    (writes : operation.writing? = some writing) {last : Step}
    (ends : operation.path.last? = some last) (document : Json) :
    operation.effect? document =
      document.updateAt? operation.path.steps.dropLast (writing.into last) := by
  cases operation with
  | set path value =>
      cases value with
      | absent =>
          cases writes
          exact Json.updateParent?_of_last? ends document Json.drop?
      | present value =>
          cases writes
          exact Json.updateParent?_of_last? ends document fun container step =>
            container.put? step value
  | change path value =>
      cases writes
      have below : path.isRoot = false := by
        rw [Path.isRoot, List.isEmpty_eq_false_iff]
        intro root
        rw [Operation.path, Path.last?, root] at ends
        cases ends
      rw [effect?, Json.replace?, below]
      exact Json.updateAt?_of_last? ends document fun _ => some value.toJson
  | unset path =>
      cases writes
      exact Json.updateParent?_of_last? ends document Json.drop?
  | patch | arrayInsert | arrayAppend => cases writes

theorem exists_last_of_check {operation : Operation}
    (replaces : History.replaces operation.kind = true) (checked : operation.check = .ok ()) :
    Exists fun last => operation.path.last? = some last := by
  have below : operation.path.isRoot = false := by
    cases operation with
    | set path | change path | unset path =>
        rw [check, check.belowRoot] at checked
        split at checked
        · cases checked
        · next notRoot => exact Bool.eq_false_iff.mpr notRoot
    | patch | arrayInsert | arrayAppend => cases replaces
  cases ends : operation.path.last? with
  | some last => exact ⟨last, rfl⟩
  | none =>
      rw [Path.isRoot, List.getLast?_eq_none_iff.mp ends] at below
      cases below

/-- Behind an operation that it supersedes, an operation does what it would
have done alone. -/
def Supersedes (later earlier : Operation) : Prop :=
  forall document : Json, document.WellFormed ->
    later.apply (earlier.apply document) = later.apply document

/-- Whether an operation supersedes another one at the same path depends on
whether the other one may move elements of the array in which the path ends. -/
theorem supersedes_iff {first second : Operation} {path : Path} {last : Step}
    (firstReplaces : History.replaces first.kind = true)
    (secondReplaces : History.replaces second.kind = true) (secondWrites : second.kind ≠ .change)
    (firstPath : first.path = path) (secondPath : second.path = path)
    (ends : path.last? = some last) :
    second.Supersedes first ↔
      last.isIndex = false ∨ first.kind = .change ∨
        (first.kind = .set ∧ first.payload?.any Payload.isAbsent = false) ∧ last = .index 0 := by
  rcases exists_writing firstReplaces with ⟨earlier, firstWriting⟩
  rcases exists_writing secondReplaces with ⟨later, secondWriting⟩
  have keeps : later.isRewrite = false := by
    apply Bool.eq_false_iff.mpr
    intro rewrites
    exact secondWrites ((isRewrite_iff secondWriting).mp rewrites)
  rw [← isRewrite_iff firstWriting, ← isPut_iff firstWriting,
    ← Writing.absorbs_into_iff keeps last, ← Json.absorbs_updateAt?_iff path.steps.dropLast]
  have firstEffect : first.effect? = fun document =>
      document.updateAt? path.steps.dropLast (earlier.into last) := by
    funext document
    rw [effect?_of_writing firstWriting (firstPath ▸ ends), firstPath]
  have secondEffect : second.effect? = fun document =>
      document.updateAt? path.steps.dropLast (later.into last) := by
    funext document
    rw [effect?_of_writing secondWriting (secondPath ▸ ends), secondPath]
  rw [← firstEffect, ← secondEffect]
  exact Iff.rfl

end Operation

/-! ## Noted operations -/

/-- A note of an update says that the one of two adjacent operations overrides
the other, and no patch is among them: the first one writes or removes at the
path, and so does the second one, whatever is there. -/
structure OverrideNoted (update : Update) (index : Nat) (path : Path)
    (first second : Operation) : Prop where
  noted : .overrides (UInt64.ofNat (index + 1)) (UInt64.ofNat index) path ∈ update.notes
  earlier : update.operations[index]? = some first
  later : update.operations[index + 1]? = some second
  earlierPath : first.path = path
  laterPath : second.path = path
  earlierKind : first.kind = .set ∨ first.kind = .change ∨ first.kind = .unset
  laterKind : second.kind = .set ∨ second.kind = .unset

/-- The noted operation supersedes the one before it if and only if the path
ends in a name, or the one before changes what is there already, or it writes
a value at the beginning of an array. -/
theorem supersedes_of_noted_iff {statement : Statement} {update : Update}
    (compiled : statement.compile = .ok update) {index : Nat} {path : Path}
    {first second : Operation} (noted : OverrideNoted update index path first second) :
    second.Supersedes first ↔
      path.endsWithIndex = false ∨ first.kind = .change ∨
        (first.kind = .set ∧ first.payload?.any Payload.isAbsent = false) ∧
          path.last? = some (.index 0) := by
  have firstReplaces : History.replaces first.kind = true := by
    rcases noted.earlierKind with kind | kind | kind <;> rw [kind] <;> rfl
  have secondReplaces : History.replaces second.kind = true := by
    rcases noted.laterKind with kind | kind <;> rw [kind] <;> rfl
  have secondWrites : second.kind ≠ .change := by
    rcases noted.laterKind with kind | kind <;> rw [kind] <;> decide
  have checked := Statement.check_of_compile compiled second (List.mem_of_getElem? noted.later)
  rcases Operation.exists_last_of_check secondReplaces checked with ⟨last, ends⟩
  rw [noted.laterPath] at ends
  rw [Operation.supersedes_iff firstReplaces secondReplaces secondWrites noted.earlierPath
    noted.laterPath ends, Path.endsWithIndex, ends, Option.some.injEq]
  rfl

/-- The path of an element of the member `a`. -/
def elementOfA (position : UInt32) : Path :=
  ⟨[.field "a", .index position]⟩

/-- A value is written at the beginning of an array and removed again. -/
def written : List Statement.Call :=
  [.set "a[0]" (.ofInt64 1), .unset ["a[0]"]]

def writtenUpdate : Update :=
  ⟨none, [.set (elementOfA 0) (.ofInt64 1), .unset (elementOfA 0)], [], none,
    [.overrides 1 0 (elementOfA 0)]⟩

theorem supersedes_written :
    (Statement.empty.performAll written).compile = .ok writtenUpdate ∧
      OverrideNoted writtenUpdate 0 (elementOfA 0) (.set (elementOfA 0) (.ofInt64 1))
        (.unset (elementOfA 0)) ∧
      Operation.Supersedes (.unset (elementOfA 0)) (.set (elementOfA 0) (.ofInt64 1)) := by
  have compiled : (Statement.empty.performAll written).compile = .ok writtenUpdate := by
    cbv
  have noted : OverrideNoted writtenUpdate 0 (elementOfA 0)
      (.set (elementOfA 0) (.ofInt64 1)) (.unset (elementOfA 0)) :=
    ⟨List.mem_singleton.mpr rfl, rfl, rfl, rfl, rfl, Or.inl rfl, Or.inr rfl⟩
  exact ⟨compiled, noted,
    (supersedes_of_noted_iff compiled noted).mpr (Or.inr (Or.inr ⟨⟨rfl, rfl⟩, rfl⟩))⟩

/-- Two values are written far behind the end of an array. -/
def pastEnd : List Statement.Call :=
  [.set "a[5]" (.ofInt64 1), .set "a[5]" (.ofInt64 2)]

def pastEndUpdate : Update :=
  ⟨none, [.set (elementOfA 5) (.ofInt64 1), .set (elementOfA 5) (.ofInt64 2)], [], none,
    [.overrides 1 0 (elementOfA 5)]⟩

/-- Both values stay in the array, though the note says that the second one
overrides the first. -/
theorem not_supersedes_pastEnd :
    (Statement.empty.performAll pastEnd).compile = .ok pastEndUpdate ∧
      OverrideNoted pastEndUpdate 0 (elementOfA 5) (.set (elementOfA 5) (.ofInt64 1))
        (.set (elementOfA 5) (.ofInt64 2)) ∧
      (Operation.set (elementOfA 5) (.ofInt64 2)).apply
          ((Operation.set (elementOfA 5) (.ofInt64 1)).apply (.object [("a", .array [])])) =
        .object [("a", .array [.number (.ofInt64 1), .number (.ofInt64 2)])] ∧
      (Operation.set (elementOfA 5) (.ofInt64 2)).apply (.object [("a", .array [])]) =
        .object [("a", .array [.number (.ofInt64 2)])] ∧
      ¬Operation.Supersedes (.set (elementOfA 5) (.ofInt64 2))
        (.set (elementOfA 5) (.ofInt64 1)) := by
  have compiled : (Statement.empty.performAll pastEnd).compile = .ok pastEndUpdate := by
    cbv
  have both : (Operation.set (elementOfA 5) (.ofInt64 2)).apply
      ((Operation.set (elementOfA 5) (.ofInt64 1)).apply (.object [("a", .array [])])) =
        .object [("a", .array [.number (.ofInt64 1), .number (.ofInt64 2)])] := rfl
  have alone : (Operation.set (elementOfA 5) (.ofInt64 2)).apply (.object [("a", .array [])]) =
      .object [("a", .array [.number (.ofInt64 2)])] := rfl
  refine ⟨compiled, ?_, both, alone, fun supersedes => ?_⟩
  · exact ⟨List.mem_singleton.mpr rfl, rfl, rfl, rfl, rfl, Or.inl rfl, Or.inl rfl⟩
  · have documents : (Json.object [("a", .array [])]).WellFormed := by
      simp [Json.WellFormed, Json.WellFormedMembers, Json.WellFormedItems, Members.Sorted]
    have same := both.symm.trans ((supersedes _ documents).trans alone)
    simp at same

end Emend
