import Mathlib.Data.List.InsertIdx
import Emend.Proofs.Document.Writing

namespace Emend
namespace Json

/-!
# Insertion and removal

An insertion into an array moves the elements behind it, and a removal moves them back.  A
removal takes a value out, and writing or inserting it again puts it back.  Each of these
changes is one of a container, so it is enough that they cancel there: the way to the container
leads to the same place before and after, and what is put in that place first is lost.
-/

/-! ## In a container -/

theorem insertIdx_eq_append (items : List Json) (value : Json) {position : Nat}
    (inside : position ≤ items.length) :
    items.insertIdx position value = items.take position ++ value :: items.drop position := by
  induction position generalizing items with
  | zero => rfl
  | succ position ih =>
      cases items with
      | nil => exact absurd inside (Nat.not_succ_le_zero position)
      | cons first rest =>
          rw [List.insertIdx_succ_cons, ih rest (Nat.le_of_succ_le_succ inside)]
          rfl

/-- A removal finds its target exactly where there is a child. -/
theorem isSome_drop?_iff (container : Json) (step : Step) :
    (container.drop? step).isSome ↔ (container.child? step).isSome := by
  cases container with
  | object members =>
      cases step with
      | field name =>
          rw [drop?, child?]
          split <;> simp [*]
      | index position => rfl
  | array items =>
      cases step with
      | field name => rfl
      | index position =>
          rw [drop?, child?_index]
          split <;> simp [*]
  | null | bool | number | string => cases step <;> rfl

/-- What was inserted is removed where it landed. -/
theorem drop?_squeeze? {container filled value : Json} {step : Step}
    (inserted : container.squeeze? step value = some filled) :
    filled.drop? (container.landing step) = some container := by
  cases container with
  | array items =>
      cases step with
      | field name => cases inserted
      | index position =>
          cases inserted
          have landed : min position.toNat items.length ≤ items.length := Nat.min_le_right _ _
          have inside : min position.toNat items.length <
              (items.insertIdx (min position.toNat items.length) value).length := by
            rw [List.length_insertIdx_of_le_length landed]
            exact Nat.lt_succ_of_le landed
          rw [landing, drop?, toNat_clamped, if_pos inside, List.eraseIdx_insertIdx_self]
  | object | null | bool | number | string => cases step <;> cases inserted

/-- What was written under a new name is removed. -/
theorem drop?_put?_of_absent {members : Members Json} (wellFormed : (object members).WellFormed)
    {name : String} (absent : Members.get? members name = none) (value : Json) :
    (object (Members.insert name value members)).drop? (.field name) = some (.object members) := by
  have sorted := ((wellFormed_object_iff members).mp wellFormed).1
  rw [drop?, Members.get?_insert_same, Option.isSome_some, if_pos rfl,
    Members.erase_insert sorted, Members.erase_of_get? absent]

/-- A container with a value that was removed from it: an element goes in front of the one that
has moved to its place, a member is written. -/
def restore? (container : Json) (step : Step) (value : Json) : Option Json :=
  if step.isIndex then container.squeeze? step value else container.put? step value

theorem restore?_drop? {container child without : Json} {step : Step}
    (wellFormed : container.WellFormed) (found : container.child? step = some child)
    (removed : container.drop? step = some without) :
    without.restore? step child = some container := by
  cases container with
  | object members =>
      cases step with
      | field name =>
          have sorted := ((wellFormed_object_iff members).mp wellFormed).1
          have here : Members.get? members name = some child := found
          rw [drop?, here, Option.isSome_some, if_pos rfl] at removed
          cases removed
          rw [restore?, Step.isIndex, if_neg Bool.false_ne_true, put?,
            Members.insert_erase sorted, Members.insert_of_get? sorted here]
      | index position => cases found
  | array items =>
      cases step with
      | field name => cases found
      | index position =>
          rw [child?_index] at found
          rcases List.getElem?_eq_some_iff.mp found with ⟨inside, rfl⟩
          rw [drop?, if_pos inside] at removed
          cases removed
          -- The index is not past the end of the shorter array, so it is not clamped.
          have unclamped : min position.toNat (items.eraseIdx position.toNat).length =
              position.toNat := by
            rw [List.length_eraseIdx_of_lt inside]
            omega
          rw [restore?, Step.isIndex, if_pos rfl, squeeze?, unclamped,
            List.insertIdx_eraseIdx_getElem inside]
  | null | bool | number | string => cases step <;> cases found

/-! ## In a document -/

section

variable {document container filled : Json} {front : Path} {last back : Step}

/-- What is undone in a container is undone in the document around it. -/
theorem updateParent?_undone (wellFormed : document.WellFormed)
    (found : document.get? front = some container)
    (change undo : Json -> Step -> Option Json) (changed : change container last = some filled)
    (undone : undo filled back = some container) :
    document.updateParent? (front.child last) change =
        some (document.withAt front.steps filled) ∧
      (document.withAt front.steps filled).updateParent? (front.child back) undo =
        some document := by
  constructor
  · rw [updateParent?_child, found, Option.bind_some, changed, Option.map_some]
  · rw [updateParent?_child, get?_withAt found, Option.bind_some, undone, Option.map_some,
      withAt_withAt wellFormed, withAt_of_resolve? wellFormed found]

theorem isSome_delete?_iff : (document.delete? (front.child last)).isSome ↔
    (document.get? (front.child last)).isSome := by
  rw [delete?, isSome_updateParent?_iff, get?_child, Option.isSome_bind, Option.any_eq_true]
  simp only [isSome_drop?_iff]

end

/-- A document with a value that was removed from it put back. -/
def putBack? (document : Json) (path : Path) (value : Json) : Option Json :=
  if path.endsWithIndex then document.insert? path value else document.set? path value

theorem putBack?_child (document : Json) (front : Path) (last : Step) (value : Json) :
    document.putBack? (front.child last) value =
      document.updateParent? (front.child last) fun container step =>
        container.restore? step value := by
  rw [putBack?, Path.endsWithIndex_child, insert?, set?, updateParent?_child, updateParent?_child,
    updateParent?_child]
  cases last <;> rfl

theorem exists_of_delete? {document found : Json} (wellFormed : document.WellFormed) {path : Path}
    (below : path.isRoot = false) (there : document.get? path = some found) :
    Exists fun without =>
      document.delete? path = some without ∧ without.putBack? path found = some document := by
  rcases path.eq_root_or_child with rfl | ⟨front, last, rfl⟩
  · cases below
  · rw [get?_child] at there
    rcases Option.bind_eq_some_iff.mp there with ⟨container, inside, child⟩
    have removable : (container.drop? last).isSome :=
      (isSome_drop?_iff container last).mpr (child ▸ rfl)
    rcases Option.isSome_iff_exists.mp removable with ⟨without, removed⟩
    have restored := restore?_drop? (wellFormed.of_get? inside) child removed
    refine ⟨document.withAt front.steps without, ?_⟩
    rw [putBack?_child]
    exact updateParent?_undone wellFormed inside drop? _ removed restored

/-- A removal misses at the root and where nothing is. -/
theorem delete?_eq_none_iff {document : Json} {path : Path} :
    document.delete? path = none ↔ path.isRoot = true ∨ document.get? path = none := by
  rcases path.eq_root_or_child with rfl | ⟨front, last, rfl⟩
  · exact ⟨fun _ => .inl rfl, fun _ => rfl⟩
  · rw [← Option.not_isSome_iff_eq_none, isSome_delete?_iff, Option.not_isSome_iff_eq_none,
      Path.isRoot_child]
    simp

/-- Insertion and removal undo each other.  A value that is inserted into an array stands at
the index, or behind the last element if the index is past the end, and the elements from there
on come behind it; nothing apart from the array changes, and the removal of the value gives the
document back.  A removal from an array moves the elements behind the index back by one.  A value
below the root can be removed, and putting it back gives the document back; so does removing a
member that was written under a new name.  Neither the root nor what is not there can be
removed. -/
theorem insertion_undoes_removal {document : Json} (wellFormed : document.WellFormed)
    (value : Json) :
    (forall front items position, document.get? front = some (.array items) ->
      Exists fun changed =>
        document.insert? (front.index position) value = some changed ∧
        changed.get? front = some (.array (items.take (min position.toNat items.length) ++
          value :: items.drop (min position.toNat items.length))) ∧
        (forall other, front.startsWith other = false -> other.startsWith front = false ->
          changed.get? other = document.get? other) ∧
        changed.delete? (front.index (UInt32.ofNat (min position.toNat items.length))) =
          some document) ∧
    (forall front items position, document.get? front = some (.array items) ->
      position.toNat < items.length ->
      Exists fun without =>
        document.delete? (front.index position) = some without ∧
        without.get? front = some (.array (items.take position.toNat ++
          items.drop (position.toNat + 1)))) ∧
    (forall path found, path.isRoot = false -> document.get? path = some found ->
      Exists fun without =>
        document.delete? path = some without ∧ without.putBack? path found = some document) ∧
    (forall front members name, document.get? front = some (.object members) ->
      Members.get? members name = none ->
      Exists fun changed =>
        document.set? (front.field name) value = some changed ∧
        changed.delete? (front.field name) = some document) ∧
    (forall path, path.isRoot = true ∨ document.get? path = none ->
      document.delete? path = none) := by
  refine ⟨?_, ?_, fun _ _ => exists_of_delete? wellFormed, ?_, fun _ => delete?_eq_none_iff.mpr⟩
  · intro front items position found
    have inserted : (array items).squeeze? (.index position) value =
        some (.array (items.insertIdx (min position.toNat items.length) value)) := rfl
    rcases updateParent?_undone wellFormed found
      (fun container step => container.squeeze? step value) drop? inserted
      (drop?_squeeze? inserted) with ⟨hit, undone⟩
    refine ⟨_, hit, ?_, ?_, undone⟩
    · rw [get?_withAt found, insertIdx_eq_append items value (Nat.min_le_right _ _)]
    · exact fun other notPrefix notExtension =>
        get?_withAt_of_apart notPrefix notExtension _
  · intro front items position found inside
    refine ⟨document.withAt front.steps (.array (items.eraseIdx position.toNat)), ?_, ?_⟩
    · rw [delete?, Path.index, updateParent?_child, found, Option.bind_some, drop?, if_pos inside,
        Option.map_some]
    · rw [get?_withAt found, List.eraseIdx_eq_take_drop_succ]
  · intro front members name found absent
    exact ⟨_, updateParent?_undone wellFormed found
      (fun container step => container.put? step value) drop? rfl
      (drop?_put?_of_absent (wellFormed.of_get? found) absent value)⟩

/-- An array of two elements beside an object with one member. -/
def twoFlags : Json :=
  .object [("a", .array [.bool false, .bool true]), ("b", .object [("c", .null)])]

/-- The same with an element more. -/
def threeFlags : Json :=
  .object [("a", .array [.bool false, .bool true, .null]), ("b", .object [("c", .null)])]

/-- An insertion far behind the last element and a removal of the first one are undone, and so is
a write under a new name; a second removal of the last element misses. -/
theorem insertion_undoes_removal_twoFlags :
    twoFlags.WellFormed ∧
    twoFlags.insert? ⟨[.field "a", .index 7]⟩ .null = some threeFlags ∧
    threeFlags.get? ⟨[.field "b", .field "c"]⟩ = some .null ∧
    threeFlags.delete? ⟨[.field "a", .index 2]⟩ = some twoFlags ∧
    (Exists fun without => twoFlags.delete? ⟨[.field "a", .index 0]⟩ = some without ∧
      without.get? ⟨[.field "a"]⟩ = some (.array [.bool true])) ∧
    (Exists fun without => twoFlags.delete? ⟨[.field "a", .index 0]⟩ = some without ∧
      without.insert? ⟨[.field "a", .index 0]⟩ (.bool false) = some twoFlags) ∧
    (Exists fun changed => twoFlags.set? ⟨[.field "b", .field "a"]⟩ .null = some changed ∧
      changed.delete? ⟨[.field "b", .field "a"]⟩ = some twoFlags) ∧
    twoFlags.delete? ⟨[.field "a", .index 2]⟩ = none := by
  have wellFormed : twoFlags.WellFormed := by decide
  rcases insertion_undoes_removal wellFormed .null with
    ⟨inserted, moved, removed, written, missed⟩
  rcases inserted ⟨[.field "a"]⟩ [.bool false, .bool true] 7 rfl with
    ⟨changed, hit, _, elsewhere, undone⟩
  have isThree : changed = threeFlags := Option.some.inj (hit.symm.trans rfl)
  subst changed
  exact ⟨wellFormed, hit,
    (elsewhere ⟨[.field "b", .field "c"]⟩ (by decide) (by decide)).trans rfl, undone,
    moved ⟨[.field "a"]⟩ [.bool false, .bool true] 0 rfl (by decide),
    removed ⟨[.field "a", .index 0]⟩ (.bool false) rfl rfl,
    written ⟨[.field "b"]⟩ [("c", .null)] "a" rfl rfl,
    missed ⟨[.field "a", .index 2]⟩ (.inr rfl)⟩

end Json
end Emend
