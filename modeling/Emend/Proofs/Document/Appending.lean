import Mathlib.Data.List.InsertIdx
import Emend.Operation.Effect
import Emend.Proofs.Document.Writing

namespace Emend
namespace Json

/-!
# Adding at the end

An element can be added behind the last one of an array by a write past the end, by an insertion
past the end, and by appending.  The first two go to the array and take the index as a step, the
third one takes the whole path to the array; they meet in what they put in the place of the
array.  Appending to any other value keeps that value as the first of two elements.
-/

/-! ## In a container -/

section

variable {items : List Json} {position : UInt32}

theorem put?_pastEnd (past : items.length ≤ position.toNat) (value : Json) :
    (array items).put? (.index position) value = some ((array items).extend value) :=
  if_neg (Nat.not_lt.mpr past)

theorem squeeze?_pastEnd (past : items.length ≤ position.toNat) (value : Json) :
    (array items).squeeze? (.index position) value = some ((array items).extend value) := by
  rw [squeeze?, Nat.min_eq_right past, List.insertIdx_length_self, extend]

end

theorem extend_of_kind_ne_array {found : Json} (noArray : found.kind ≠ .array) (value : Json) :
    found.extend value = .array [found, value] := by
  cases found with
  | array items => exact absurd rfl noArray
  | object | null | bool | number | string => rfl

/-! ## In a document -/

/-- To append is to look up what is at the path and to put it back extended. -/
theorem append?_eq (document : Json) (path : Path) (value : Json) :
    document.append? path value =
      (document.get? path).map fun found => document.withAt path.steps (found.extend value) := by
  rw [append?, updateAt?_eq, get?]
  cases document.resolve? path.steps <;> rfl

theorem replace?_eq {path : Path} (below : path.isRoot = false) (document value : Json) :
    document.replace? path value =
      (document.get? path).map fun _ => document.withAt path.steps value := by
  rw [replace?, below, if_neg Bool.false_ne_true, updateAt?_eq, get?]
  cases document.resolve? path.steps <;> rfl

theorem append?_eq_none_iff {document : Json} {path : Path} {value : Json} :
    document.append? path value = none ↔ document.get? path = none := by
  rw [append?_eq, Option.map_eq_none_iff]

/-- A replacement misses at the root and where nothing is. -/
theorem replace?_eq_none_iff {document : Json} {path : Path} {value : Json} :
    document.replace? path value = none ↔ path.isRoot = true ∨ document.get? path = none := by
  cases place : path.isRoot with
  | true => simp [replace?, place]
  | false => simp [replace?_eq place]

/-- The ways to add an element agree, and appending loses nothing.  Past the end of an array
writing, inserting and appending make the same document, in which the array has the value behind
its elements.  Where there is no array, to append is to replace what is there by an array of it
and the value, at the root as below.  Where nothing is there it misses.  Paths that are neither
part of the path nor go on from it find what they found. -/
theorem append?_keeps_all (document value : Json) :
    (forall path items position, document.get? path = some (.array items) ->
      items.length ≤ position.toNat ->
      Exists fun changed =>
        document.set? (path.index position) value = some changed ∧
        document.insert? (path.index position) value = some changed ∧
        document.append? path value = some changed ∧
        changed.get? path = some (.array (items ++ [value]))) ∧
    (forall path found, document.get? path = some found -> found.kind ≠ .array ->
      Exists fun changed =>
        document.append? path value = some changed ∧
        changed.get? path = some (.array [found, value]) ∧
        (path.isRoot = true -> changed = .array [document, value]) ∧
        (path.isRoot = false ->
          document.replace? path (.array [found, value]) = some changed)) ∧
    (forall path, document.get? path = none -> document.append? path value = none) ∧
    (forall path payload, document.get? path = none ->
      (Operation.arrayAppend path payload).apply document = document) ∧
    (forall path changed other, document.append? path value = some changed ->
      path.startsWith other = false -> other.startsWith path = false ->
      changed.get? other = document.get? other) := by
  refine ⟨?_, ?_, ?_, ?_, ?_⟩
  · intro path items position found past
    refine ⟨document.withAt path.steps ((array items).extend value), ?_, ?_, ?_, ?_⟩
    · rw [Path.index, set?_child, found, Option.bind_some, put?_pastEnd past, Option.map_some]
    · rw [Path.index, insert?, updateParent?_child, found, Option.bind_some,
        squeeze?_pastEnd past, Option.map_some]
    · rw [append?_eq, found, Option.map_some]
    · exact get?_withAt found _
  · intro path found there noArray
    have extended := extend_of_kind_ne_array noArray value
    refine ⟨document.withAt path.steps (.array [found, value]), ?_, get?_withAt there _, ?_, ?_⟩
    · rw [append?_eq, there, Option.map_some, extended]
    · intro root
      have none : path.steps = [] := List.isEmpty_iff.mp root
      rw [get?, none, resolve?_nil] at there
      rw [none, withAt, Option.some.inj there]
    · intro below
      rw [replace?_eq below, there, Option.map_some]
  · exact fun _ => append?_eq_none_iff.mpr
  · intro path payload missing
    rw [Operation.apply, Operation.effect?, append?_eq_none_iff.mpr missing, Option.getD_none]
  · intro path changed other appended notPrefix notExtension
    rw [append?_eq] at appended
    rcases Option.map_eq_some_iff.mp appended with ⟨found, _, rfl⟩
    exact get?_withAt_of_apart notPrefix notExtension _

/-- An object in an array, beside a text. -/
def listedObject : Json :=
  .object [("a", .array [.object [("b", .string "x")]]), ("c", .string "y")]

/-- Appending behind the object, to the text inside it, at the root, and where nothing is. -/
theorem append?_keeps_all_listedObject :
    listedObject.set? ⟨[.field "a", .index 9]⟩ .null =
        listedObject.append? ⟨[.field "a"]⟩ .null ∧
    listedObject.insert? ⟨[.field "a", .index 9]⟩ .null =
        listedObject.append? ⟨[.field "a"]⟩ .null ∧
    listedObject.append? ⟨[.field "a", .index 0, .field "b"]⟩ .null =
        some (.object [("a", .array [.object [("b", .array [.string "x", .null])]]),
          ("c", .string "y")]) ∧
    listedObject.replace? ⟨[.field "a", .index 0, .field "b"]⟩ (.array [.string "x", .null]) =
        listedObject.append? ⟨[.field "a", .index 0, .field "b"]⟩ .null ∧
    listedObject.append? .root .null = some (.array [listedObject, .null]) ∧
    listedObject.append? ⟨[.field "b"]⟩ .null = none ∧
    (Operation.arrayAppend ⟨[.field "b"]⟩ .absent).apply listedObject = listedObject := by
  rcases append?_keeps_all listedObject .null with ⟨pastEnd, wrapped, missed, unchanged, _⟩
  rcases pastEnd ⟨[.field "a"]⟩ [.object [("b", .string "x")]] 9 rfl (by decide) with
    ⟨longer, set, inserted, appended, _⟩
  rcases wrapped ⟨[.field "a", .index 0, .field "b"]⟩ (.string "x") rfl (by decide) with
    ⟨changed, inText, _, _, replaced⟩
  rcases wrapped .root listedObject rfl (by decide) with ⟨whole, atRoot, _, isPair, _⟩
  exact ⟨set.trans appended.symm, inserted.trans appended.symm, rfl,
    (replaced rfl).trans inText.symm, atRoot.trans (congrArg some (isPair rfl)),
    missed ⟨[.field "b"]⟩ rfl, unchanged ⟨[.field "b"]⟩ .absent rfl⟩

end Json
end Emend
