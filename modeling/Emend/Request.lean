import Emend.Statement

namespace Emend

/-!
# Requests

A request lists the calls that build a statement.  It is replayed call by call
on the empty statement, so it fails exactly where the calls would.
-/

/-- An entry of a request.  A patch is given as an object, or as the text of
one; whether a value is null or missing makes no difference. -/
inductive Request.Entry where
  | set (path : String) (value : Option Json)
  | change (path : String) (value : Option Json)
  | unset (paths : List String)
  | patch (document : Json)
  | arrayInsert (path : String) (value : Option Json)
  | arrayAppend (path : String) (value : Option Json)
  | merge (document : Json)
  | arrayDelete (path : String) (position : Int64)

structure Request where
  collection : Option String
  operations : List Request.Entry
  sort : List String
  limit : Option Int64

namespace Request

/-- The payload of a value that may be missing. -/
def payload (value : Option Json) : Payload :=
  .ofOption (value.map .ofJson)

/-- The call of an entry. -/
def Entry.call : Entry → Statement.Call
  | .set path value => .set path (payload value)
  | .change path value => .change path (payload value)
  | .unset paths => .unset paths
  | .patch (.string text) => .patchText text
  | .patch document => .patch document
  | .arrayInsert path value => .arrayInsert path (payload value)
  | .arrayAppend path value => .arrayAppend path (payload value)
  | .merge (.string text) => .merge text
  | .merge document => .merge document.compact
  | .arrayDelete path position => .arrayDelete path position

/-- The calls of a request in the order in which they are made.  An empty list
of sort expressions makes no call. -/
def calls (request : Request) : List Statement.Call :=
  request.collection.toList.map .collection ++
    request.operations.map Entry.call ++
    (if request.sort.isEmpty then [] else [.sort request.sort]) ++
    request.limit.toList.map .limit

/-- The statement that a request builds, or the fault of its first failing
call. -/
def toStatement (request : Request) : Except Fault Statement :=
  request.calls.foldlM Statement.perform Statement.empty

end Request
end Emend
