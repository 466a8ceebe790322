import Mathlib.Data.List.Basic
import Emend.Proofs.Document.MergePatch
import Emend.Proofs.Document.Overwrite

namespace Emend
namespace Json

/-!
# Writes and look-ups

A change at the end of a way takes out what the way leads to and puts the result in its
place.  So what it does to a document can be told by look-ups: at the place and below it they
find the new value, and a path that parts from the way finds what it found before.

A write changes the container in which its last step is taken.  Where the step is an index
past the end of an array, the value lands behind the last element, and that is where it is
found again.
-/

/-! ## Putting a value in its place -/

theorem resolve?_append (front rest : List Step) :
    forall value : Json, value.resolve? (front ++ rest) =
      (value.resolve? front).bind fun inner => inner.resolve? rest := by
  induction front with
  | nil =>
      intro value
      rw [List.nil_append, resolve?_nil, Option.bind_some]
  | cons step front ih =>
      intro value
      rw [List.cons_append, resolve?, resolve?, Option.bind_assoc]
      exact congrArg (Option.bind (value.child? step)) (funext ih)

theorem WellFormed.of_resolve? {inner : Json} (steps : List Step) :
    forall {value : Json}, value.WellFormed -> value.resolve? steps = some inner ->
      inner.WellFormed := by
  induction steps with
  | nil =>
      intro value wellFormed found
      exact Option.some.inj found ▸ wellFormed
  | cons step rest ih =>
      intro value wellFormed found
      rw [resolve?] at found
      rcases Option.bind_eq_some_iff.mp found with ⟨child, here, below⟩
      exact ih (wellFormed.of_child? here) below

/-- The value with another one where steps lead.  Where they lead nowhere the value stays as
it is. -/
def withAt : Json -> List Step -> Json -> Json
  | _, [], new => new
  | value, step :: rest, new =>
      match value.child? step with
      | some child => value.withChild step (child.withAt rest new)
      | none => value

/-- A change at the end of a way is a look-up, the change, and a replacement. -/
theorem updateAt?_eq (steps : List Step) (change : Json -> Option Json) :
    forall value : Json, value.updateAt? steps change =
      (value.resolve? steps).bind fun inner => (change inner).map (value.withAt steps) := by
  induction steps with
  | nil =>
      intro value
      rw [updateAt?, resolve?_nil, Option.bind_some]
      exact Option.map_id'.symm
  | cons step rest ih =>
      intro value
      rw [updateAt?_cons, changeChild?, resolve?]
      cases found : value.child? step with
      | none => rfl
      | some child =>
          rw [Option.bind_some, Option.bind_some, ih child, Option.map_bind]
          apply congrArg
          funext inner
          rw [Function.comp_apply, Option.map_map]
          apply congrArg (Option.map · (change inner))
          funext new
          rw [Function.comp_apply, withAt, found]

section Place

variable {value inner : Json} {steps : List Step}

theorem child?_withChild_of_ne {step other : Step} (different : other ≠ step) (new : Json) :
    (value.withChild step new).child? other = value.child? other := by
  cases value with
  | object members =>
      cases step with
      | field name =>
          cases other with
          | field wanted =>
              have apart : wanted ≠ name := fun same => different (congrArg Step.field same)
              exact Members.get?_insert_of_ne apart new members
          | index position => rfl
      | index position => rfl
  | array items =>
      cases step with
      | field name => rfl
      | index position =>
          cases other with
          | field wanted => rfl
          | index wanted =>
              have apart : position.toNat ≠ wanted.toNat := fun same =>
                different (congrArg Step.index (UInt32.toNat_inj.mp same.symm))
              exact List.getElem?_set_ne apart
  | null | bool | number | string => cases step <;> rfl

/-- At its place and below, the new value is found. -/
theorem resolve?_withAt (found : value.resolve? steps = some inner) (new : Json)
    (suffix : List Step) :
    (value.withAt steps new).resolve? (steps ++ suffix) = new.resolve? suffix := by
  induction steps generalizing value with
  | nil => rfl
  | cons step rest ih =>
      rw [resolve?] at found
      rcases Option.bind_eq_some_iff.mp found with ⟨child, here, below⟩
      rw [withAt, here, List.cons_append, resolve?]
      simp only [child?_withChild here, Option.bind_some]
      exact ih below

/-- A path that is neither on the way nor goes on from it finds what it found. -/
theorem resolve?_withAt_of_apart {other : List Step} (before : ¬ other <+: steps)
    (behind : ¬ steps <+: other) (new : Json) :
    (value.withAt steps new).resolve? other = value.resolve? other := by
  induction steps generalizing value other with
  | nil => exact absurd List.nil_prefix behind
  | cons step rest ih =>
      cases other with
      | nil => exact absurd List.nil_prefix before
      | cons first others =>
          rw [withAt]
          cases here : value.child? step with
          | none => rfl
          | some child =>
              by_cases same : first = step
              · subst first
                rw [resolve?, resolve?, child?_withChild here, here]
                exact ih (fun ahead => before (List.cons_prefix_cons.mpr ⟨rfl, ahead⟩))
                  fun further => behind (List.cons_prefix_cons.mpr ⟨rfl, further⟩)
              · rw [resolve?, resolve?, child?_withChild_of_ne same]

/-- What is put back where it was changes nothing. -/
theorem withAt_of_resolve? (wellFormed : value.WellFormed)
    (found : value.resolve? steps = some inner) : value.withAt steps inner = value := by
  induction steps generalizing value with
  | nil => exact (Option.some.inj found).symm
  | cons step rest ih =>
      rw [resolve?] at found
      rcases Option.bind_eq_some_iff.mp found with ⟨child, here, below⟩
      simp only [withAt, here]
      rw [ih (wellFormed.of_child? here) below, withChild_of_child? wellFormed here]

/-- Of two values that are put in the same place the second one stays. -/
theorem withAt_withAt (wellFormed : value.WellFormed) (old new : Json) :
    (value.withAt steps old).withAt steps new = value.withAt steps new := by
  induction steps generalizing value with
  | nil => rfl
  | cons step rest ih =>
      cases here : value.child? step with
      | none => simp only [withAt, here]
      | some child =>
          simp only [withAt, here, child?_withChild here]
          rw [ih (wellFormed.of_child? here), withChild_withChild wellFormed]

end Place

/-! ## Containers -/

/-- Where a value that is written by a step lands in a container. -/
def landing : Json -> Step -> Step
  | .array items, .index position => .index (UInt32.ofNat (min position.toNat items.length))
  | _, step => step

/-- A step can be taken in a container: a name in an object, an index in an array. -/
def Holds : Json -> Step -> Prop
  | .object _, .field _ => True
  | .array _, .index _ => True
  | _, _ => False

theorem toNat_clamped (position : UInt32) (count : Nat) :
    (UInt32.ofNat (min position.toNat count)).toNat = min position.toNat count :=
  UInt32.toNat_ofNat_of_lt' (Nat.lt_of_le_of_lt (Nat.min_le_left _ _) position.toNat_lt)

theorem isSome_put?_iff (container : Json) (step : Step) (value : Json) :
    (container.put? step value).isSome ↔ container.Holds step := by
  cases container with
  | object members => cases step <;> simp [put?, Holds]
  | array items =>
      cases step with
      | field name => simp [put?, Holds]
      | index position =>
          rw [put?]
          split <;> simp [Holds]
  | null | bool | number | string => cases step <;> simp [put?, Holds]

theorem child?_index (items : List Json) (position : UInt32) :
    (array items).child? (.index position) = items[position.toNat]? := rfl

theorem child?_put? {container changed value : Json} {step : Step}
    (written : container.put? step value = some changed) :
    changed.child? (container.landing step) = some value := by
  cases container with
  | object members =>
      cases step with
      | field name =>
          cases written
          exact Members.get?_insert_same name value members
      | index position => cases written
  | array items =>
      cases step with
      | field name => cases written
      | index position =>
          rw [put?] at written
          split at written
          · next inside =>
              cases written
              rw [landing, child?_index, toNat_clamped, Nat.min_eq_left (Nat.le_of_lt inside),
                List.getElem?_set_self inside]
          · next outside =>
              cases written
              rw [landing, child?_index, toNat_clamped, Nat.min_eq_right (Nat.not_lt.mp outside),
                List.getElem?_concat_length]
  | null | bool | number | string => cases step <;> cases written

theorem child?_put?_of_ne {container changed value : Json} {step other : Step}
    (written : container.put? step value = some changed)
    (different : other ≠ container.landing step) :
    changed.child? other = container.child? other := by
  cases container with
  | object members =>
      cases step with
      | field name =>
          cases written
          exact @child?_withChild_of_ne (object members) (.field name) other different value
      | index position => cases written
  | array items =>
      cases step with
      | field name => cases written
      | index position =>
          rw [put?] at written
          cases other with
          | field wanted => split at written <;> cases written <;> rfl
          | index wanted =>
              have apart : wanted.toNat ≠ min position.toNat items.length := by
                rw [← toNat_clamped position items.length]
                exact fun same => different (congrArg Step.index (UInt32.toNat_inj.mp same))
              split at written
              · next inside =>
                  cases written
                  rw [Nat.min_eq_left (Nat.le_of_lt inside)] at apart
                  exact List.getElem?_set_ne apart.symm
              · next outside =>
                  cases written
                  rw [Nat.min_eq_right (Nat.not_lt.mp outside)] at apart
                  rw [child?_index, child?_index, List.getElem?_append]
                  split
                  · rfl
                  · next behind =>
                      rw [List.getElem?_eq_none (by simp; omega), List.getElem?_eq_none (by omega)]
  | null | bool | number | string => cases step <;> cases written

/-- Where there is a child already, a write replaces it. -/
theorem put?_of_child? {container child : Json} {step : Step}
    (found : container.child? step = some child) (value : Json) :
    container.put? step value = some (container.withChild step value) := by
  cases container with
  | object members =>
      cases step with
      | field name => rfl
      | index position => cases found
  | array items =>
      cases step with
      | field name => cases found
      | index position =>
          rw [child?_index] at found
          exact if_pos (List.getElem?_eq_some_iff.mp found).1
  | null | bool | number | string => cases step <;> cases found

end Json

/-! ## Writing at a path -/

namespace Path

theorem last?_child (front : Path) (last : Step) : (front.child last).last? = some last :=
  List.getLast?_concat

theorem dropLast_child (front : Path) (last : Step) :
    (front.child last).steps.dropLast = front.steps :=
  List.dropLast_concat

/-- A path is the root, or it has a last step. -/
theorem eq_root_or_child (path : Path) :
    path = root ∨ Exists fun front => Exists fun last => path = child front last := by
  rcases path with ⟨steps⟩
  rcases List.eq_nil_or_concat' steps with rfl | ⟨front, last, rfl⟩
  · exact .inl rfl
  · exact .inr ⟨⟨front⟩, last, rfl⟩

theorem isRoot_child (front : Path) (last : Step) : (front.child last).isRoot = false :=
  List.isEmpty_eq_false_iff.mpr (List.concat_ne_nil last front.steps)

theorem endsWithIndex_child (front : Path) (last : Step) :
    (front.child last).endsWithIndex = last.isIndex := by
  rw [endsWithIndex, last?_child, Option.any_some]

theorem not_prefix_of_startsWith {path other : Path} (apart : path.startsWith other = false) :
    ¬ other.steps <+: path.steps := fun before =>
  Bool.noConfusion (apart.symm.trans (List.isPrefixOf_iff_prefix.mpr before))

end Path

namespace Json

/-- The path at which a value is found after it was written by a step behind another path. -/
def writtenPath (document : Json) (front : Path) (last : Step) : Path :=
  match document.get? front with
  | some container => front.child (container.landing last)
  | none => front.child last

section

variable {document value : Json} {front : Path} {last : Step}

theorem writtenPath_of_get? {container : Json} (found : document.get? front = some container)
    (last : Step) : document.writtenPath front last = front.child (container.landing last) := by
  rw [writtenPath, found]

theorem updateParent?_eq_updateAt? (document : Json) (front : Path) (last : Step)
    (change : Json -> Step -> Option Json) :
    document.updateParent? (front.child last) change =
      document.updateAt? front.steps fun container => change container last := by
  rw [updateParent?_of_last? (Path.last?_child front last), Path.dropLast_child]

/-- A change in the container in front of the last step is a look-up of the container, the
change, and a replacement. -/
theorem updateParent?_child (document : Json) (front : Path) (last : Step)
    (change : Json -> Step -> Option Json) :
    document.updateParent? (front.child last) change =
      (document.get? front).bind fun container =>
        (change container last).map (document.withAt front.steps) := by
  rw [updateParent?_eq_updateAt?, updateAt?_eq, get?]

theorem isSome_updateParent?_iff {document : Json} {front : Path} {last : Step}
    {change : Json -> Step -> Option Json} :
    (document.updateParent? (front.child last) change).isSome ↔
      Exists fun container =>
        document.get? front = some container ∧ (change container last).isSome := by
  rw [updateParent?_child]
  cases document.get? front with
  | none => simp
  | some container =>
      rw [Option.bind_some, Option.isSome_map]
      simp

theorem get?_root (document : Json) : document.get? .root = some document :=
  resolve?_nil document

/-- An object is found at a path. -/
def FindsObject (document : Json) (path : Path) : Prop :=
  Exists fun members => document.get? path = some (.object members)

/-- An array is found at a path. -/
def FindsArray (document : Json) (path : Path) : Prop :=
  Exists fun items => document.get? path = some (.array items)

theorem WellFormed.of_get? {path : Path} {inner : Json} (wellFormed : document.WellFormed)
    (found : document.get? path = some inner) : inner.WellFormed :=
  wellFormed.of_resolve? path.steps found

theorem updateParent?_root (document : Json) (change : Json -> Step -> Option Json) :
    document.updateParent? .root change = none := rfl

/-- What is put in the place of a path is found there. -/
theorem get?_withAt {path : Path} {inner : Json} (found : document.get? path = some inner)
    (new : Json) : (document.withAt path.steps new).get? path = some new := by
  have below := resolve?_withAt found new []
  rwa [List.append_nil, resolve?_nil] at below

/-- Paths that are neither on the way to a place nor go on from it do not notice what is put
there. -/
theorem get?_withAt_of_apart {path other : Path} (notPrefix : path.startsWith other = false)
    (notExtension : other.startsWith path = false) (new : Json) :
    (document.withAt path.steps new).get? other = document.get? other :=
  resolve?_withAt_of_apart (Path.not_prefix_of_startsWith notPrefix)
    (Path.not_prefix_of_startsWith notExtension) new

theorem set?_child (document : Json) (front : Path) (last : Step) (value : Json) :
    document.set? (front.child last) value =
      (document.get? front).bind fun container =>
        (container.put? last value).map (document.withAt front.steps) :=
  updateParent?_child document front last fun container step => container.put? step value

theorem get?_child (document : Json) (front : Path) (last : Step) :
    document.get? (front.child last) =
      (document.get? front).bind fun container => container.child? last := by
  have single : (fun inner : Json => inner.resolve? [last]) = fun inner => inner.child? last := by
    funext inner
    rw [resolve?]
    cases inner.child? last <;> rfl
  rw [get?, get?, Path.child, resolve?_append, single]

theorem replace?_child (document : Json) (front : Path) (last : Step) (value : Json) :
    document.replace? (front.child last) value =
      (document.get? front).bind fun container =>
        (container.child? last).map fun _ =>
          document.withAt front.steps (container.withChild last value) := by
  rw [replace?, Path.isRoot_child, if_neg Bool.false_ne_true,
    updateAt?_of_last? (Path.last?_child front last), Path.dropLast_child, updateAt?_eq, get?]
  apply congrArg
  funext container
  rw [changeChild?]
  cases container.child? last <;> rfl

theorem isSome_set?_iff :
    (document.set? (front.child last) value).isSome ↔
      Exists fun container => document.get? front = some container ∧ container.Holds last := by
  simp only [set?, isSome_updateParent?_iff, isSome_put?_iff]

/-- What a write has made of a document: the container is changed, and the document around it is
as it was. -/
theorem exists_of_set? {changed : Json}
    (written : document.set? (front.child last) value = some changed) :
    Exists fun container => Exists fun filled =>
      document.get? front = some container ∧ container.put? last value = some filled ∧
      document.withAt front.steps filled = changed := by
  rw [set?_child] at written
  rcases Option.bind_eq_some_iff.mp written with ⟨container, found, placed⟩
  rcases Option.map_eq_some_iff.mp placed with ⟨filled, put, same⟩
  exact ⟨container, filled, found, put, same⟩

theorem get?_of_set? {changed : Json}
    (written : document.set? (front.child last) value = some changed) (suffix : List Step) :
    changed.get? ⟨(document.writtenPath front last).steps ++ suffix⟩ = value.get? ⟨suffix⟩ := by
  rcases exists_of_set? written with ⟨container, filled, found, put, rfl⟩
  have inContainer : filled.resolve? (container.landing last :: suffix) = value.resolve? suffix := by
    rw [resolve?, child?_put? put, Option.bind_some]
  rw [writtenPath_of_get? found, get?, get?, Path.child, List.append_assoc, List.singleton_append,
    resolve?_withAt found, inContainer]

theorem get?_of_set?_apart {changed : Json} {other : Path}
    (written : document.set? (front.child last) value = some changed)
    (notPrefix : (document.writtenPath front last).startsWith other = false)
    (notExtension : other.startsWith (document.writtenPath front last) = false) :
    changed.get? other = document.get? other := by
  rcases exists_of_set? written with ⟨container, filled, found, put, rfl⟩
  rw [writtenPath_of_get? found] at notPrefix notExtension
  have ahead : ¬ other.steps <+: front.steps ++ [container.landing last] :=
    Path.not_prefix_of_startsWith notPrefix
  have further : ¬ front.steps ++ [container.landing last] <+: other.steps :=
    Path.not_prefix_of_startsWith notExtension
  by_cases through : front.steps <+: other.steps
  · rcases through with ⟨rest, through⟩
    cases rest with
    | nil =>
        rw [List.append_nil] at through
        exact absurd (through ▸ List.prefix_append front.steps _) ahead
    | cons step rest =>
        have different : step ≠ container.landing last := by
          rintro rfl
          rw [← List.singleton_append, ← List.append_assoc] at through
          exact further (through ▸ List.prefix_append _ rest)
        have inside : document.resolve? front.steps = some container := found
        rw [get?, get?, ← through, resolve?_withAt found, resolve?_append, inside,
          Option.bind_some, resolve?, resolve?, child?_put?_of_ne put different]
  · exact resolve?_withAt_of_apart
      (fun before => ahead (before.trans (List.prefix_append _ _))) through filled

theorem isSome_replace?_iff :
    (document.replace? (front.child last) value).isSome ↔
      (document.get? (front.child last)).isSome := by
  rw [replace?_child, get?_child]
  cases document.get? front with
  | none => exact Iff.rfl
  | some container => rw [Option.bind_some, Option.bind_some, Option.isSome_map]

/-- Where there is a value already, writing is replacing. -/
theorem set?_eq_replace? (there : (document.get? (front.child last)).isSome) :
    document.set? (front.child last) value = document.replace? (front.child last) value := by
  rw [set?_child, replace?_child]
  rw [get?_child] at there
  cases found : document.get? front with
  | none => rfl
  | some container =>
      rw [found, Option.bind_some] at there
      rcases Option.isSome_iff_exists.mp there with ⟨child, here⟩
      rw [Option.bind_some, Option.bind_some, put?_of_child? here, here]
      rfl

end

/-- A write is told by look-ups.  It finds its place if the value in front of the last step is an
object and the step is a name, or it is an array and the step is an index.  Then the value
is found at the place, an index past the end being clamped to the length of the array, and
below the place is what is below the value; a path that is neither part of the path to the
place nor goes on from it finds what it found.  A replacement finds its place if there is
a value already, and does there what a write does. -/
theorem set?_told_by_get? (document value : Json) (front : Path) (last : Step) :
    ((document.set? (front.child last) value).isSome ↔
      (Exists fun members => Exists fun name =>
        document.get? front = some (.object members) ∧ last = .field name) ∨
      (Exists fun items => Exists fun position =>
        document.get? front = some (.array items) ∧ last = .index position)) ∧
    (forall changed, document.set? (front.child last) value = some changed ->
      (forall suffix, changed.get? ⟨(document.writtenPath front last).steps ++ suffix⟩ =
        value.get? ⟨suffix⟩) ∧
      forall other, (document.writtenPath front last).startsWith other = false ->
        other.startsWith (document.writtenPath front last) = false ->
        changed.get? other = document.get? other) ∧
    ((document.replace? (front.child last) value).isSome ↔
      (document.get? (front.child last)).isSome) ∧
    ((document.get? (front.child last)).isSome ->
      (document.set? (front.child last) value).isSome ∧
        document.set? (front.child last) value = document.replace? (front.child last) value) := by
  refine ⟨?_, ?_, isSome_replace?_iff, ?_⟩
  · rw [isSome_set?_iff]
    constructor
    · rintro ⟨container, found, holds⟩
      cases container <;> cases last <;> try exact False.elim holds
      · exact .inr ⟨_, _, found, rfl⟩
      · exact .inl ⟨_, _, found, rfl⟩
    · rintro (⟨members, name, found, rfl⟩ | ⟨items, position, found, rfl⟩)
      · exact ⟨_, found, trivial⟩
      · exact ⟨_, found, trivial⟩
  · intro changed written
    exact ⟨get?_of_set? written, fun _ => get?_of_set?_apart written⟩
  · intro there
    have same : document.set? (front.child last) value =
        document.replace? (front.child last) value := set?_eq_replace? there
    exact ⟨same ▸ isSome_replace?_iff.mpr there, same⟩

/-- An object with an array of one element. -/
def oneElement : Json :=
  .object [("a", .array [.bool true])]

/-- The same with an element more, which is an object. -/
def twoElements : Json :=
  .object [("a", .array [.bool true, .object [("b", .null)]])]

/-- A write far behind the last element, and one where there is an element. -/
theorem set?_told_by_get?_pastEnd :
    oneElement.set? ⟨[.field "a", .index 7]⟩ (.object [("b", .null)]) = some twoElements ∧
    twoElements.get? ⟨[.field "a", .index 1, .field "b"]⟩ = some .null ∧
    twoElements.get? ⟨[.field "a", .index 0]⟩ = oneElement.get? ⟨[.field "a", .index 0]⟩ ∧
    (oneElement.get? ⟨[.field "a", .index 0]⟩).isSome ∧
    oneElement.set? ⟨[.field "a", .index 0]⟩ .null =
      oneElement.replace? ⟨[.field "a", .index 0]⟩ .null := by
  have written : oneElement.set? ⟨[.field "a", .index 7]⟩ (.object [("b", .null)]) =
      some twoElements := rfl
  have there : (oneElement.get? ⟨[.field "a", .index 0]⟩).isSome := rfl
  rcases (set?_told_by_get? oneElement (.object [("b", .null)]) ⟨[.field "a"]⟩ (.index 7)).2.1 _
    written with ⟨below, elsewhere⟩
  exact ⟨written, below [.field "b"], elsewhere ⟨[.field "a", .index 0]⟩ (by decide) (by decide),
    there, ((set?_told_by_get? oneElement .null ⟨[.field "a"]⟩ (.index 0)).2.2.2 there).2⟩

end Json
end Emend
