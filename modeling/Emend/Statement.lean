import Emend.Update

namespace Emend

/-!
# Statements

A statement is built by calls, each of which gives a new statement or a fault
and leaves the old statement as it was.  Paths and sort expressions are checked
by the call that brings them, so a built statement can fail to compile only by
having no operations.
-/

structure Statement where
  operations : List Operation
  sort : List String
  limit : Option UInt64
  collection : Option String

namespace Statement

/-- The statement without any call. -/
def empty : Statement := ⟨[], [], none, none⟩

/-- The calls that build a statement.  Paths are still texts here. -/
inductive Call where
  | collection (name : String)
  | sort (expressions : List String)
  | limit (rows : Int64)
  | set (path : String) (value : Payload)
  | change (path : String) (value : Payload)
  | unset (paths : List String)
  | patch (document : Json)
  | patchText (document : String)
  | arrayInsert (path : String) (value : Payload)
  | arrayAppend (path : String) (value : Payload)
  | merge (document : String)
  | arrayDelete (path : String) (position : Int64)

/-! ## The effect of calls -/

/-- The path of an operation of the given kind. -/
def target (kind : Operation.Kind) (text : String) : Except Fault Path :=
  Path.parseFor (.operation kind) text

/-- The operation of a value that is set; setting an absent value removes.  A null
that is present is set like any other value. -/
def setOperation (path : Path) : Payload → Operation
  | .absent => .unset path
  | .present value => .set path (.present value)

/-- Sort expressions as they are kept: without white space around them. -/
def checkSort (expression : String) : Except Fault String := do
  let trimmed := String.ofList (Text.trim expression.toList)
  let _ ← SortKey.parse trimmed
  pure trimmed

/-- The patch of a JSON value. -/
def patchOperation : Json → Except Fault Operation
  | .object members => .ok (.patch members)
  | other => .error (.document (.notObject other.kind))

/-- Refuse an operation at a path that needs a value and has none. -/
def requireValue (path : Path) (value : Payload) : Except Fault Unit :=
  if value.isAbsent then .error (.missingValue path) else .ok ()

/-- The operations that a call adds to a statement; the calls that set the
collection, the sort expressions or the limit add none. -/
def Call.operations : Call → Except Fault (List Operation)
  | .collection _ | .sort _ | .limit _ => .ok []
  | .set path value => do
      let path ← target .set path
      pure [setOperation path value]
  | .change path value => do
      let path ← target .change path
      pure [.change path value]
  | .unset paths => paths.mapM fun path => do
      let path ← target .unset path
      pure (.unset path)
  | .patch document => do
      let operation ← patchOperation document
      pure [operation]
  | .patchText document =>
      match Json.ofText? document with
      | none => .error (.document .notJson)
      | some document => do
          let operation ← patchOperation document
          pure [operation]
  | .arrayInsert text value => do
      let path ← target .arrayInsert text
      if !path.endsWithIndex then throw (.path (.insertWithoutIndex text))
      requireValue path value
      pure [.arrayInsert path value]
  | .arrayAppend text value => do
      let path ← target .arrayAppend text
      if path.endsWithIndex then throw (.path (.appendToElement text))
      requireValue path value
      pure [.arrayAppend path value]
  | .merge _ => .error (.unsupported .merge)
  | .arrayDelete _ _ => .error (.unsupported .arrayDelete)

/-- The statement after a call. -/
def perform (statement : Statement) (call : Call) : Except Fault Statement :=
  match call with
  | .collection name => .ok { statement with collection := some name }
  | .sort expressions => do
      let sort ← expressions.mapM checkSort
      pure { statement with sort := sort }
  | .limit rows =>
      if rows < 0 then .error (.negativeLimit rows)
      else .ok { statement with limit := some rows.toUInt64 }
  | other => do
      let operations ← other.operations
      pure { statement with operations := statement.operations ++ operations }

/-- The statement after calls of which those that fail have no effect. -/
def performAll (statement : Statement) (calls : List Call) : Statement :=
  calls.foldl (fun statement call => (statement.perform call).toOption.getD statement) statement

/-! ## Compilation -/

/-- The update of a statement.  Nothing is dropped, joined or moved; every
operation and every sort expression is checked. -/
def compile (statement : Statement) : Except Fault Update := do
  if statement.operations.isEmpty then throw .emptyStatement
  statement.operations.forM Operation.check
  statement.sort.forM fun expression => do
    let _ ← SortKey.parse expression
    pure ()
  pure {
    collection := statement.collection
    operations := statement.operations
    sort := statement.sort
    limit := statement.limit
    notes := notesOn statement.operations }

end Statement
end Emend
