import Emend.Json.Print
import Emend.Path
import Emend.Payload

namespace Emend

/-!
# Operations

An operation is one change to one document.  All but patches name the place of
the change by a path; a patch is an object that says what its members become.
-/

inductive Operation where
  /-- Write a value at a path; an absent one removes what is there. -/
  | set (path : Path) (value : Payload)
  /-- Write a value at a path where there is one already. -/
  | change (path : Path) (value : Payload)
  | unset (path : Path)
  | patch (document : Members Json)
  /-- Put a value in front of an element of an array. -/
  | arrayInsert (path : Path) (value : Payload)
  /-- Put a value behind the last element of an array. -/
  | arrayAppend (path : Path) (value : Payload)

namespace Operation

inductive Kind where
  | set
  | change
  | unset
  | patch
  | arrayInsert
  | arrayAppend
  deriving DecidableEq

/-- The name of a kind in messages and in written statements. -/
def Kind.name : Kind → String
  | .set => "set"
  | .change => "change"
  | .unset => "unset"
  | .patch => "patch"
  | .arrayInsert => "array_insert"
  | .arrayAppend => "array_append"

def Kind.all : List Kind :=
  [.set, .change, .unset, .patch, .arrayInsert, .arrayAppend]

def kind : Operation → Kind
  | .set _ _ => .set
  | .change _ _ => .change
  | .unset _ => .unset
  | .patch _ => .patch
  | .arrayInsert _ _ => .arrayInsert
  | .arrayAppend _ _ => .arrayAppend

/-- Where the operation takes effect; a patch concerns the whole document. -/
def path : Operation → Path
  | .set path _ | .change path _ | .unset path | .arrayInsert path _ | .arrayAppend path _ => path
  | .patch _ => .root

/-- The value that comes with the operation, for the kinds that have one. -/
def payload? : Operation → Option Payload
  | .set _ value | .change _ value | .arrayInsert _ value | .arrayAppend _ value => some value
  | .unset _ | .patch _ => none

/-- The text by which messages show the operation. -/
def describe : Operation → String
  | .unset path => "unset(" ++ path.write ++ ")"
  | .patch document => "patch(" ++ (Json.object document).compact ++ ")"
  | .set path value => withValue .set path value
  | .change path value => withValue .change path value
  | .arrayInsert path value => withValue .arrayInsert path value
  | .arrayAppend path value => withValue .arrayAppend path value
where
  withValue (kind : Kind) (path : Path) (value : Payload) : String :=
    kind.name ++ "(" ++ path.write ++ ", " ++ value.toJson.compact ++ ")"

end Operation
end Emend
