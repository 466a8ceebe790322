import Emend.Json

namespace Emend
namespace Json

/-!
# Merge patches

A patch that is no object takes the place of the document.  A patch that is an
object changes the members it names: null removes one, an object patches it in
turn, and any other value takes its place.  A document that is no object counts
as an object without members.
-/

mutual
/-- The document after a patch. -/
def mergePatch : Json → Json → Json
  | .object patch, document => .object (mergeMembers patch document.members)
  | .null, _ => .null
  | .bool value, _ => .bool value
  | .number value, _ => .number value
  | .string value, _ => .string value
  | .array items, _ => .array items

/-- The members of an object after the members of a patch. -/
def mergeMembers : List (String × Json) → Members Json → Members Json
  | [], members => members
  | (name, .null) :: rest, members => mergeMembers rest (Members.erase name members)
  | (name, value) :: rest, members =>
      let old := (Members.get? members name).getD .null
      mergeMembers rest (Members.insert name (mergePatch value old) members)
end

end Json
end Emend
