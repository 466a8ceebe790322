import Emend.Json.Members
import Emend.Number

namespace Emend

/-!
# JSON values

Documents, patches and payloads are JSON values.  The members of an object are
a list; in a *document* every object has its members in strictly increasing
order of names, which `Json.WellFormed` says.  The written forms of statements
and messages are JSON values too, and there the members stand in the order in
which they are written.
-/

inductive Json where
  | null
  | bool (value : Bool)
  | number (value : Number)
  | string (value : String)
  | array (items : List Json)
  | object (members : List (String × Json))

namespace Json

/-! ## Kinds -/

/-- The six kinds of JSON values, in the order in which values of different
kinds are sorted. -/
inductive Kind where
  | null
  | bool
  | number
  | string
  | array
  | object
  deriving DecidableEq

def kind : Json → Kind
  | .null => .null
  | .bool _ => .bool
  | .number _ => .number
  | .string _ => .string
  | .array _ => .array
  | .object _ => .object

/-- The place of a kind among the kinds. -/
def Kind.rank : Kind → Nat
  | .null => 0
  | .bool => 1
  | .number => 2
  | .string => 3
  | .array => 4
  | .object => 5

def isNull : Json → Bool
  | .null => true
  | _ => false

/-- The members of an object; other values have none. -/
def members : Json → Members Json
  | .object members => members
  | _ => []

/-- The value of a name in an object. -/
def member? (value : Json) (name : String) : Option Json :=
  Members.get? value.members name

/-! ## Documents -/

mutual
/-- Every object in the value has its members in strictly increasing order of
names. -/
def WellFormed : Json → Prop
  | .array items => WellFormedItems items
  | .object members => Members.Sorted members ∧ WellFormedMembers members
  | .null | .bool _ | .number _ | .string _ => True

/-- `WellFormed` for each item of an array. -/
def WellFormedItems : List Json → Prop
  | [] => True
  | item :: rest => WellFormed item ∧ WellFormedItems rest

/-- `WellFormed` for each value in a list of members. -/
def WellFormedMembers : List (String × Json) → Prop
  | [] => True
  | (_, value) :: rest => WellFormed value ∧ WellFormedMembers rest
end

mutual
/-- The value with the members of every object brought into order; of a
repeated name the last value is kept. -/
def sorted : Json → Json
  | .array items => .array (sortedItems items)
  | .object members => .object (Members.ofList (sortedMembers members))
  | .null => .null
  | .bool value => .bool value
  | .number value => .number value
  | .string value => .string value

/-- `sorted` for each item of an array. -/
def sortedItems : List Json → List Json
  | [] => []
  | item :: rest => sorted item :: sortedItems rest

/-- `sorted` for each value in a list of members. -/
def sortedMembers : List (String × Json) → List (String × Json)
  | [] => []
  | (name, value) :: rest => (name, sorted value) :: sortedMembers rest
end

/-! ## Equality -/

mutual
/-- Equality of values.  It is finer than equality of numbers as quantities,
since an integer never equals a binary64 number, and coarser than identity,
since the two zeros are equal. -/
def equal : Json → Json → Bool
  | .null, .null => true
  | .bool left, .bool right => left == right
  | .number left, .number right => left.equal right
  | .string left, .string right => left == right
  | .array left, .array right => equalItems left right
  | .object left, .object right => equalMembers left right
  | _, _ => false

/-- Equality item by item. -/
def equalItems : List Json → List Json → Bool
  | [], [] => true
  | left :: lefts, right :: rights => equal left right && equalItems lefts rights
  | _, _ => false

/-- Equality member by member, names included. -/
def equalMembers : List (String × Json) → List (String × Json) → Bool
  | [], [] => true
  | (leftName, left) :: lefts, (rightName, right) :: rights =>
      leftName == rightName && equal left right && equalMembers lefts rights
  | _, _ => false
end

end Json
end Emend
