import Emend.SortKey
import Emend.Update.Note

namespace Emend

/-!
# Updates

An update is a statement made ready for a store: the operations in their order,
the collection they go to, the sort expressions and the limit that choose the
documents, and the notes.  An update that was not compiled here but received
has to be validated before it is applied.
-/

structure Update where
  collection : Option String
  operations : List Operation
  sort : List String
  limit : Option UInt64
  notes : List Note

/-! ## Validity -/

namespace Operation

/-- Refuse an operation that no store could apply: only patches concern the
whole document, insertions need an index at the end of the path and additions
must not have one, and both need a value. -/
def check (operation : Operation) : Except Fault Unit :=
  match operation with
  | .patch _ => pure ()
  | .set path _ | .change path _ | .unset path => belowRoot operation.kind path
  | .arrayInsert path value => do
      belowRoot operation.kind path
      if !path.endsWithIndex then throw (.path (.insertWithoutIndex path.write))
      if value.isAbsent then throw (.missingValue path)
  | .arrayAppend path value => do
      belowRoot operation.kind path
      if path.endsWithIndex then throw (.path (.appendToElement path.write))
      if value.isAbsent then throw (.missingValue path)
where
  belowRoot (kind : Kind) (path : Path) : Except Fault Unit :=
    if path.isRoot then throw (.emptyPath (.operation kind)) else pure ()

end Operation

namespace Update

/-- The sort keys of the sort expressions. -/
def sortKeys (update : Update) : Except Fault (List SortKey) :=
  update.sort.mapM SortKey.parse

/-- Refuse an update that has no operations, or whose operations or sort
expressions are refused; the first fault counts. -/
def validate (update : Update) : Except Fault Unit := do
  if update.operations.isEmpty then throw .emptyStatement
  update.operations.forM Operation.check
  let _ ← update.sortKeys
  pure ()

end Update
end Emend
