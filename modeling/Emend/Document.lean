import Emend.Json
import Emend.Path

namespace Emend
namespace Json

/-!
# Documents under change

Every change to a document goes through `updateAt?`: walk along steps that
resolve, change the value found there, and put the results back on the way up.
A change answers `none` when it misses: then the path does not resolve the way
the change needs, and nothing is written.  No change makes the containers on
the way.
-/

/-! ## Looking up -/

/-- The value that one step leads to. -/
def child? : Json → Step → Option Json
  | .object members, .field name => Members.get? members name
  | .array items, .index position => items[position.toNat]?
  | _, _ => none

/-- The value that steps lead to. -/
def resolve? : Json → List Step → Option Json
  | value, [] => some value
  | value, step :: rest => (value.child? step).bind fun child => child.resolve? rest

/-- The value at a path. -/
def get? (document : Json) (path : Path) : Option Json :=
  document.resolve? path.steps

/-! ## Changing -/

/-- The value with another one where a step leads.  Where the step leads
nowhere the value stays as it is. -/
def withChild : Json → Step → Json → Json
  | .object members, .field name, value => .object (Members.insert name value members)
  | .array items, .index position, value => .array (items.set position.toNat value)
  | other, _, _ => other

/-- The value after a change of what steps lead to. -/
def updateAt? : Json → List Step → (Json → Option Json) → Option Json
  | value, [], change => change value
  | value, step :: rest, change => do
      let child ← value.child? step
      let changed ← child.updateAt? rest change
      some (value.withChild step changed)

/-- The value after a change of the container in which the last step of a path
is taken.  The root has no last step. -/
def updateParent? (document : Json) (path : Path) (change : Json → Step → Option Json) :
    Option Json :=
  match path.last? with
  | none => none
  | some last => document.updateAt? path.steps.dropLast fun container => change container last

/-- A container with a member or an element written; an index past the end adds
an element. -/
def put? : Json → Step → Json → Option Json
  | .object members, .field name, value => some (.object (Members.insert name value members))
  | .array items, .index position, value =>
      if position.toNat < items.length then some (.array (items.set position.toNat value))
      else some (.array (items ++ [value]))
  | _, _, _ => none

/-- A container without a member or an element that is there. -/
def drop? : Json → Step → Option Json
  | .object members, .field name =>
      if (Members.get? members name).isSome then some (.object (Members.erase name members))
      else none
  | .array items, .index position =>
      if position.toNat < items.length then some (.array (items.eraseIdx position.toNat)) else none
  | _, _ => none

/-- An array with an element put in front of the one at an index; an index past
the end adds the element at the end. -/
def squeeze? : Json → Step → Json → Option Json
  | .array items, .index position, value =>
      some (.array (items.insertIdx (min position.toNat items.length) value))
  | _, _, _ => none

/-- An array with one more element; any other value becomes the first of two
elements. -/
def extend : Json → Json → Json
  | .array items, value => .array (items ++ [value])
  | other, value => .array [other, value]

/-! ## Changes at paths -/

/-- Write a value at a path whose container is there. -/
def set? (document : Json) (path : Path) (value : Json) : Option Json :=
  document.updateParent? path fun container step => container.put? step value

/-- Write a value in place of the one at a path below the root. -/
def replace? (document : Json) (path : Path) (value : Json) : Option Json :=
  if path.isRoot then none else document.updateAt? path.steps fun _ => some value

/-- Remove the value at a path. -/
def delete? (document : Json) (path : Path) : Option Json :=
  document.updateParent? path drop?

/-- Insert a value into an array in front of the element at a path. -/
def insert? (document : Json) (path : Path) (value : Json) : Option Json :=
  document.updateParent? path fun container step => container.squeeze? step value

/-- Add a value at the end of the array at a path. -/
def append? (document : Json) (path : Path) (value : Json) : Option Json :=
  document.updateAt? path.steps fun found => some (found.extend value)

end Json
end Emend
