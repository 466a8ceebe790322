import Emend.Path.Lexeme

namespace Emend
namespace Path

/-!
# Reading paths

A path is a chain of members and indices.  The dollar sign in front is
optional, and so is the point before the first member when no dollar sign
stands there; an index may follow a point.  The empty text and a single dollar
sign are the root.
-/

/-- The index that a run of digits denotes: leading zeros are allowed, and the
value must fit 32 bits. -/
def indexOf? (digits : String) : Option UInt32 :=
  let value := Nat.ofDigitChars 10 digits.toList 0
  if value < UInt32.size then some (UInt32.ofNat value) else none

/-- The fault of meeting something unexpected at the head of the remaining
lexemes of a text with the given length. -/
def unexpectedAt (size : Nat) (expected : Expectation) : List Lexeme → Malformed
  | [] => .unexpected expected none size
  | lexeme :: _ => .unexpected expected (some lexeme.token) lexeme.position

mutual
/-- The steps behind a complete step. -/
def furtherSteps (size : Nat) : List Lexeme → Except Malformed (List Step)
  | [] => .ok []
  | ⟨.openBracket, _⟩ :: rest => bracketed size rest
  | ⟨.dot, _⟩ :: rest => member size rest
  | other => .error (unexpectedAt size .furtherStep other)

/-- The steps that begin with a member, or with an index in its place. -/
def member (size : Nat) : List Lexeme → Except Malformed (List Step)
  | ⟨.name text, _⟩ :: rest => (furtherSteps size rest).map (.field text :: ·)
  | ⟨.openBracket, _⟩ :: rest => bracketed size rest
  | other => .error (unexpectedAt size .fieldName other)

/-- The steps that begin with an index whose opening bracket has been read. -/
def bracketed (size : Nat) : List Lexeme → Except Malformed (List Step)
  | ⟨.number digits, position⟩ :: rest =>
      match indexOf? digits with
      | none => .error (.indexOutOfRange digits position)
      | some index => closed size index rest
  | other => .error (unexpectedAt size .arrayIndex other)

/-- The steps that begin with an index of which only the closing bracket is
still to be read. -/
def closed (size : Nat) (index : UInt32) : List Lexeme → Except Malformed (List Step)
  | ⟨.closeBracket, _⟩ :: rest => (furtherSteps size rest).map (.index index :: ·)
  | other => .error (unexpectedAt size .closeBracket other)
end

/-- The steps of a whole path. -/
def allSteps (size : Nat) : List Lexeme → Except Malformed (List Step)
  | [] => .ok []
  | [⟨.dollar, _⟩] => .ok []
  | ⟨.dollar, _⟩ :: ⟨.dot, _⟩ :: rest => member size rest
  | ⟨.dollar, _⟩ :: ⟨.openBracket, _⟩ :: rest => bracketed size rest
  | ⟨.dollar, _⟩ :: other => .error (unexpectedAt size .stepAfterDollar other)
  | ⟨.openBracket, _⟩ :: rest => bracketed size rest
  | other => member size other

/-- The path of a text given as characters; it may be the root. -/
def ofChars (text : List Char) : Except Malformed Path :=
  match lexemes text with
  | .error fault => .error fault
  | .ok found => (allSteps text.length found).map Path.mk

/-- The path of a text; it may be the root. -/
def read (text : String) : Except Malformed Path :=
  ofChars text.toList

/-! ## Messages -/

def Expectation.message : Expectation → String
  | .stepAfterDollar => "'.' or '[' after '$'"
  | .furtherStep => "'.', '[' or end of path"
  | .fieldName => "field name"
  | .arrayIndex => "array index"
  | .closeBracket => "']'"

/-- How a message names what was found; `none` is the end of the text. -/
def Token.message : Option Token → String
  | none => "end of path"
  | some .dollar => "'$'"
  | some .dot => "'.'"
  | some .openBracket => "'['"
  | some .closeBracket => "']'"
  | some (.name text) => "field '" ++ text ++ "'"
  | some (.number digits) => "number " ++ digits

/-- The message for a fault in a text. -/
def Malformed.message (source : String) : Malformed → String
  | .unterminatedQuote start =>
      "unterminated quoted field name starting" ++ place start
  | .whiteSpace position => "unexpected whitespace" ++ place position
  | .strayCharacter c position => "unexpected character '" ++ c.toString ++ "'" ++ place position
  | .unexpected expected found position =>
      "expected " ++ expected.message ++ " but found " ++ Token.message found ++ place position
  | .indexOutOfRange digits position =>
      "array index " ++ digits ++ " out of range" ++ place position
where
  place (position : Nat) : String :=
    " at position " ++ toString position ++ " in '" ++ source ++ "'"

end Path
end Emend
