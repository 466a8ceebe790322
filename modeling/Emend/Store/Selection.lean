import Emend.Document
import Emend.SortKey

namespace Emend

/-!
# Selection

Which documents of a collection an update concerns, and in which order: the
documents sorted by the sort keys, equal ones in the order of the collection,
and of these the first ones up to the limit.
-/

namespace Json

/-- The order of values.  Kinds come one after another; within booleans, numbers
and strings the value decides, and any two arrays or objects are equal.
Numbers are compared as binary64 numbers. -/
def order : Json → Json → Ordering
  | .bool left, .bool right => compare left.toNat right.toNat
  | .number left, .number right => compare left.position right.position
  | .string left, .string right => compare left right
  | left, right => compare left.kind.rank right.kind.rank

end Json

namespace SortKey

/-- The value by which a key sorts a document: null where the path does not
resolve. -/
def valueIn (key : SortKey) (document : Json) : Json :=
  (document.get? key.path).getD .null

/-- The order of documents by one key. -/
def order (key : SortKey) (left right : Json) : Ordering :=
  let ordering := (key.valueIn left).order (key.valueIn right)
  if key.ascending then ordering else ordering.swap

/-- The order of documents by several keys: the first key that tells them apart
decides. -/
def orderAll : List SortKey → Json → Json → Ordering
  | [], _, _ => .eq
  | key :: rest, left, right => (key.order left right).then (orderAll rest left right)

end SortKey

namespace Store

/-- The positions of the documents in their order by sort keys. -/
def sortedPositions (documents : List Json) (keys : List SortKey) : List Nat :=
  (List.range documents.length).mergeSort fun left right =>
    SortKey.orderAll keys (documents.getD left .null) (documents.getD right .null) != .gt

/-- The positions of the selected documents. -/
def select (documents : List Json) (keys : List SortKey) (limit : Option UInt64) : List Nat :=
  let positions := sortedPositions documents keys
  match limit with
  | none => positions
  | some rows => positions.take rows.toNat

end Store
end Emend
