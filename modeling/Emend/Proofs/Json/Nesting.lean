import Emend.Json

namespace Emend
namespace Json

/-!
# Nesting

Readers of texts and of bytes go down into arrays and objects to a fixed depth
only.  How deep a value is nested decides whether they reach all of it.
-/

mutual
/-- How deep arrays and objects are nested in a value. -/
def nesting : Json -> Nat
  | .array items => nestingItems items + 1
  | .object members => nestingMembers members + 1
  | .null | .bool _ | .number _ | .string _ => 0

/-- The deepest nesting among the items of an array. -/
def nestingItems : List Json -> Nat
  | [] => 0
  | item :: rest => max (nesting item) (nestingItems rest)

/-- The deepest nesting among the members of an object. -/
def nestingMembers : List (String × Json) -> Nat
  | [] => 0
  | (_, value) :: rest => max (nesting value) (nestingMembers rest)
end

end Json
end Emend
