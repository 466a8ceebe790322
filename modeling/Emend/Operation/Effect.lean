import Emend.Document
import Emend.Document.MergePatch
import Emend.Operation

namespace Emend
namespace Operation

/-!
# The effect of operations

An operation changes a document or misses it.  A patch never misses.

Here a document is given back or none.  That operations which change a document where
it stands, and tell whether they found their target, come to the same is
`Operation.inPlace_eq`.
-/

/-- The document after an operation, or `none` when the operation misses. -/
def effect? : Operation → Json → Option Json
  | .set path (.present value), document => document.set? path value
  | .set path .absent, document => document.delete? path
  | .change path value, document => document.replace? path value.toJson
  | .unset path, document => document.delete? path
  | .patch members, document => some (Json.mergePatch (.object members) document)
  | .arrayInsert path value, document => document.insert? path value.toJson
  | .arrayAppend path value, document => document.append? path value.toJson

/-- The document after an operation that may miss. -/
def apply (operation : Operation) (document : Json) : Json :=
  (operation.effect? document).getD document

/-- Whether an operation finds its target in a document. -/
def hits (operation : Operation) (document : Json) : Bool :=
  (operation.effect? document).isSome

end Operation
end Emend
