namespace Emend

/-!
# Members

Members are named values in a list.  Documents and stores keep theirs in
strictly increasing order of the names, which makes equal contents equal
lists; the operations here keep that order.  Names are ordered by their code
points, which is also the order of their bytes in UTF-8.
-/

abbrev Members (Value : Type) := List (String × Value)

namespace Members

/-- The names stand in strictly increasing order, so none is repeated. -/
def Sorted {Value : Type} (members : Members Value) : Prop :=
  members.Pairwise fun left right => compare left.1 right.1 = .lt

/-- The value of a name.  In members that are not sorted the first one
counts. -/
def get? {Value : Type} (members : Members Value) (name : String) : Option Value :=
  members.lookup name

/-- Members in which the name has the value, whether or not it had one. -/
def insert {Value : Type} (name : String) (value : Value) : Members Value → Members Value
  | [] => [(name, value)]
  | (other, old) :: rest =>
      match compare name other with
      | .lt => (name, value) :: (other, old) :: rest
      | .eq => (name, value) :: rest
      | .gt => (other, old) :: insert name value rest

/-- Members without the name. -/
def erase {Value : Type} (name : String) (members : Members Value) : Members Value :=
  members.filter fun member => member.1 != name

/-- Sorted members of a list of named values.  Of several values for one name
the last counts. -/
def ofList {Value : Type} (entries : List (String × Value)) : Members Value :=
  entries.foldl (fun members entry => members.insert entry.1 entry.2) []

end Members
end Emend
