import Emend.Operation
import Emend.Path.Reader

namespace Emend

/-!
# Faults of statements

A fault is the reason why a statement, or one call that builds it, is refused.
-/

/-- Why something is no path, or not the path that is needed. -/
inductive PathFault where
  | malformed (source : String) (cause : Path.Malformed)
  /-- An insertion must say in front of which element. -/
  | insertWithoutIndex (written : String)
  /-- An addition at the end must name the array, not an element. -/
  | appendToElement (written : String)
  | emptySortExpression
  | sortDirection (word expression : String)
  | sortExcess (word expression : String)
  deriving DecidableEq

/-- Where a path other than the root was needed. -/
inductive BelowRoot where
  | text (source : String)
  | operation (kind : Operation.Kind)
  deriving DecidableEq

/-- Why a document cannot be a patch. -/
inductive DocumentFault where
  /-- A text is no JSON.  Its message is the wording of the reader of the text, which
  is only known to follow the words that all faults of documents begin with. -/
  | notJson
  | notObject (kind : Json.Kind)
  deriving DecidableEq

/-- Calls that statements know by name and do not offer. -/
inductive UnsupportedCall where
  | merge
  | arrayDelete
  deriving DecidableEq

inductive Fault where
  | path (cause : PathFault)
  | emptyPath (place : BelowRoot)
  | negativeLimit (rows : Int64)
  | missingValue (place : Path)
  | emptyStatement
  | unsupported (call : UnsupportedCall)
  | document (cause : DocumentFault)
  deriving DecidableEq

/-! ## Messages -/

def PathFault.message : PathFault → String
  | .malformed source cause => cause.message source
  | .insertWithoutIndex written =>
      "array insert path '" ++ written ++ "' must end with an array index"
  | .appendToElement written =>
      "array append path '" ++ written ++ "' must name an array, not an element"
  | .emptySortExpression => "empty sort expression"
  | .sortDirection word expression =>
      "invalid sort direction '" ++ word ++ "' in '" ++ expression ++ "'"
  | .sortExcess word expression =>
      "unexpected '" ++ word ++ "' in sort expression '" ++ expression ++ "'"

def BelowRoot.message : BelowRoot → String
  | .text source => "'" ++ source ++ "'"
  | .operation kind => kind.name

/-- How a message about a patch names a kind of values. -/
def DocumentFault.kindName : Json.Kind → String
  | .null => "null"
  | .bool => "boolean"
  | .number => "number"
  | .string => "string"
  | .array => "array"
  | .object => "object"

def DocumentFault.message : DocumentFault → String
  | .notJson => "not a JSON text"
  | .notObject kind => "patch document must be an object, got " ++ kindName kind

def UnsupportedCall.name : UnsupportedCall → String
  | .merge => "merge"
  | .arrayDelete => "array_delete"

def Fault.message : Fault → String
  | .path cause => "Invalid path syntax: " ++ cause.message
  | .emptyPath place => "Empty path not allowed for " ++ place.message
  | .negativeLimit rows => "Invalid limit: " ++ toString rows ++ " (must be non-negative)"
  | .missingValue place => "Missing value for " ++ place.write
  | .emptyStatement => "Statement has no operations"
  | .unsupported call => "Operation not supported: " ++ call.name
  | .document cause => "Invalid document: " ++ cause.message

/-! ## Paths with faults -/

namespace Path

/-- The path of a text, which may be the root. -/
def parseAllowingRoot (text : String) : Except Fault Path :=
  (read text).mapError fun cause => .path (.malformed text cause)

/-- The path of a text, which may not be the root; `place` says so in the
message. -/
def parseFor (place : BelowRoot) (text : String) : Except Fault Path := do
  let path ← parseAllowingRoot text
  if path.isRoot then throw (.emptyPath place) else pure path

/-- The path of a text, which may not be the root. -/
def parse (text : String) : Except Fault Path :=
  parseFor (.text text) text

end Path
end Emend
