import Emend.Operation.Effect
import Emend.Proofs.Document.Appending
import Emend.Proofs.Document.Removal
import Emend.Proofs.Operation.InPlace

namespace Emend

/-!
# Operations that miss

Whether an operation finds its target is decided by two look-ups, the one of its path and the
one of its path without the last step.  A write asks only for a container in which the last step
can be taken; removals and replacements ask for a value at the path, and insertions for an array
in front of an index.  A patch asks for nothing.

An operation that misses leaves the document as it is.  For operations that give a new
document or none this lies in their form; for operations in place, which may write before they
tell, it is a law of each of them.
-/

namespace Path

theorem child_inj {front other : Path} {last step : Step} :
    front.child last = other.child step ↔ front = other ∧ last = step := by
  rcases front with ⟨front⟩
  rcases other with ⟨other⟩
  simp [child]

end Path

namespace Json

/-! ## What is found in front of the last step -/

/-- A container in which a step can be taken is found at a path: for a name an object, for an
index an array. -/
def FindsContainer (document : Json) (path : Path) : Step -> Prop
  | .field _ => document.FindsObject path
  | .index _ => document.FindsArray path

section

variable {document value : Json} {path front : Path} {last : Step}

theorem exists_holds_iff :
    (Exists fun container => document.get? front = some container ∧ container.Holds last) ↔
      document.FindsContainer front last := by
  constructor
  · rintro ⟨container, found, holds⟩
    cases container <;> cases last <;> try exact False.elim holds
    · exact ⟨_, found⟩
    · exact ⟨_, found⟩
  · intro finds
    cases last with
    | field name =>
        rcases finds with ⟨members, found⟩
        exact ⟨_, found, trivial⟩
    | index position =>
        rcases finds with ⟨items, found⟩
        exact ⟨_, found, trivial⟩

/-- An insertion needs an array and an index. -/
theorem isSome_squeeze?_iff (container : Json) (step : Step) (value : Json) :
    (container.squeeze? step value).isSome ↔
      step.isIndex = true ∧ Exists fun items => container = .array items := by
  cases container <;> cases step <;> simp [squeeze?, Step.isIndex]

theorem isSome_insert?_iff :
    (document.insert? (front.child last) value).isSome ↔
      last.isIndex = true ∧ document.FindsArray front := by
  simp only [insert?, isSome_updateParent?_iff, isSome_squeeze?_iff, FindsArray]
  constructor
  · rintro ⟨container, found, index, items, rfl⟩
    exact ⟨index, items, found⟩
  · rintro ⟨index, items, found⟩
    exact ⟨_, found, index, items, rfl⟩

/-! ## Changes that miss -/

theorem set?_eq_none_iff :
    document.set? path value = none ↔
      path.isRoot = true ∨ Exists fun front => Exists fun last =>
        path = .child front last ∧ ¬ document.FindsContainer front last := by
  rcases path.eq_root_or_child with rfl | ⟨front, last, rfl⟩
  · exact ⟨fun _ => .inl rfl, fun _ => rfl⟩
  · rw [← Option.not_isSome_iff_eq_none, isSome_set?_iff, exists_holds_iff, Path.isRoot_child]
    simp [Path.child_inj]

theorem insert?_eq_none_iff :
    document.insert? path value = none ↔
      path.isRoot = true ∨ path.endsWithIndex = false ∨
      Exists fun front => Exists fun last =>
        path = .child front last ∧ ¬ document.FindsArray front := by
  rcases path.eq_root_or_child with rfl | ⟨front, last, rfl⟩
  · exact ⟨fun _ => .inl rfl, fun _ => rfl⟩
  · rw [← Option.not_isSome_iff_eq_none, isSome_insert?_iff, Path.isRoot_child,
      Path.endsWithIndex_child]
    simp [Path.child_inj, imp_iff_not_or]

end

end Json

/-! ## Operations -/

namespace Operation

/-- What an operation needs is not in a document. -/
def Misses : Operation -> Json -> Prop
  | .set path (.present _), document =>
      path.isRoot = true ∨ Exists fun front => Exists fun last =>
        path = .child front last ∧ ¬ document.FindsContainer front last
  | .set path .absent, document | .unset path, document | .change path _, document =>
      path.isRoot = true ∨ document.get? path = none
  | .arrayInsert path _, document =>
      path.isRoot = true ∨ path.endsWithIndex = false ∨
      Exists fun front => Exists fun last =>
        path = .child front last ∧ ¬ document.FindsArray front
  | .arrayAppend path _, document => document.get? path = none
  | .patch _, _ => False

theorem effect?_eq_none_iff (operation : Operation) (document : Json) :
    operation.effect? document = none ↔ operation.Misses document := by
  cases operation with
  | set path value =>
      cases value with
      | absent => exact Json.delete?_eq_none_iff
      | present value => exact Json.set?_eq_none_iff
  | change path value => exact Json.replace?_eq_none_iff
  | unset path => exact Json.delete?_eq_none_iff
  | patch members => simp [effect?, Misses]
  | arrayInsert path value => exact Json.insert?_eq_none_iff
  | arrayAppend path value => exact Json.append?_eq_none_iff

/-- An operation that does not find its target leaves the document as it is, and it does not
find it exactly where what it needs is not there.  The same holds of the operation in place: it
tells the same, what it has told it missed it has left alone, and in a document in order it
leaves behind what the operation gives. -/
theorem not_hits_iff_misses (operation : Operation) (document : Json) :
    (operation.hits document = false -> operation.apply document = document) ∧
    (operation.hits document = false ↔ operation.Misses document) ∧
    ((operation.inPlace document).1 = false -> (operation.inPlace document).2 = document) ∧
    ((operation.inPlace document).1 = false ↔ operation.Misses document) ∧
    (document.WellFormed ->
      operation.inPlace document = (operation.hits document, operation.apply document)) := by
  have noEffect : operation.hits document = false ↔ operation.effect? document = none := by
    rw [hits, Option.isSome_eq_false_iff, Option.isNone_iff_eq_none]
  have carries := operation.carriesOut_inPlace
  have flag : (operation.inPlace document).1 = operation.hits document := carries.flag document
  have misses : operation.hits document = false ↔ operation.Misses document := by
    rw [noEffect, effect?_eq_none_iff]
  refine ⟨?_, misses, carries.missed document, ?_, operation.inPlace_eq⟩
  · intro missed
    rw [apply, noEffect.mp missed, Option.getD_none]
  · rw [flag]
    exact misses

/-- A flag in an array. -/
def listedFlag : Json :=
  .object [("a", .array [.bool true])]

/-- Write a member into the flag. -/
def setInFlag : Operation :=
  .set ⟨[.field "a", .index 0, .field "x"]⟩ (.ofString "v")

/-- Insert in front of a member. -/
def insertAtMember : Operation :=
  .arrayInsert ⟨[.field "a"]⟩ .absent

/-- A flag has no members, and a name is no place to insert at; but the flag can be removed. -/
theorem not_hits_listedFlag :
    setInFlag.hits listedFlag = false ∧ setInFlag.apply listedFlag = listedFlag ∧
    setInFlag.Misses listedFlag ∧ setInFlag.inPlace listedFlag = (false, listedFlag) ∧
    insertAtMember.hits listedFlag = false ∧ insertAtMember.apply listedFlag = listedFlag ∧
    insertAtMember.Misses listedFlag ∧ (insertAtMember.inPlace listedFlag).2 = listedFlag ∧
    ¬ (unset ⟨[.field "a", .index 0]⟩).Misses listedFlag := by
  have setMissed : setInFlag.hits listedFlag = false := rfl
  have insertMissed : insertAtMember.hits listedFlag = false := rfl
  have removed : ¬ (unset ⟨[.field "a", .index 0]⟩).hits listedFlag = false := by decide
  have ordered : listedFlag.WellFormed := by decide
  rcases not_hits_iff_misses setInFlag listedFlag with ⟨setKeeps, setMisses, _, _, setInPlace⟩
  rcases not_hits_iff_misses insertAtMember listedFlag with
    ⟨insertKeeps, insertMisses, insertLeaves, _, _⟩
  refine ⟨setMissed, setKeeps setMissed, setMisses.mp setMissed, ?_, insertMissed,
    insertKeeps insertMissed, insertMisses.mp insertMissed, insertLeaves rfl,
    fun misses => removed ((not_hits_iff_misses _ listedFlag).2.1.mpr misses)⟩
  rw [setInPlace ordered, setMissed, setKeeps setMissed]

end Operation
end Emend
