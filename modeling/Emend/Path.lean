import Emend.Text.Class

namespace Emend

/-!
# Paths

A path leads from a document to one of the values inside it, a step at a time:
to the member of an object by its name, or to the element of an array by its
index.  The path without steps is the root, the document itself.

Every path has one canonical text.  It begins with `$`; a member follows a
point and an index stands in brackets.  A name that is not plain stands between
backquotes, with each backquote inside written twice.
-/

/-- One step into a value. -/
inductive Step where
  | field (name : String)
  | index (position : UInt32)
  deriving DecidableEq

structure Path where
  steps : List Step
  deriving DecidableEq

namespace Step

def isIndex : Step → Bool
  | .field _ => false
  | .index _ => true

end Step

namespace Path

/-! ## Structure -/

def root : Path := ⟨[]⟩

def isRoot (path : Path) : Bool :=
  path.steps.isEmpty

def length (path : Path) : Nat :=
  path.steps.length

def last? (path : Path) : Option Step :=
  path.steps.getLast?

/-- The path without its last step. -/
def parent? (path : Path) : Option Path :=
  if path.isRoot then none else some ⟨path.steps.dropLast⟩

def endsWithIndex (path : Path) : Bool :=
  path.last?.any Step.isIndex

/-- Whether the path begins with all steps of the other one. -/
def startsWith (path other : Path) : Bool :=
  other.steps.isPrefixOf path.steps

def child (path : Path) (step : Step) : Path :=
  ⟨path.steps ++ [step]⟩

/-- The member of the value at the path. -/
def field (path : Path) (name : String) : Path :=
  path.child (.field name)

/-- The element of the value at the path. -/
def index (path : Path) (position : UInt32) : Path :=
  path.child (.index position)

/-! ## Canonical text -/

/-- The character around a name that is not plain. -/
def backquote : Char := '\x60'

/-- Characters that may begin a plain name. -/
def beginsName (c : Char) : Bool :=
  Text.isAlphabetic c || c == '_'

/-- Characters that may continue a plain name. -/
def continuesName (c : Char) : Bool :=
  Text.isAlphanumeric c || c == '_'

/-- Whether a name can stand without backquotes. -/
def isPlainName : List Char → Bool
  | [] => false
  | first :: rest => beginsName first && rest.all continuesName

/-- A name with every backquote written twice. -/
def doubleBackquotes (name : List Char) : List Char :=
  name.flatMap fun c => if c = backquote then [backquote, backquote] else [c]

/-- The text of a name. -/
def writeName (name : List Char) : List Char :=
  if isPlainName name then name
  else backquote :: doubleBackquotes name ++ [backquote]

/-- The text of a step behind another one. -/
def writeStep : Step → List Char
  | .field name => '.' :: writeName name.toList
  | .index position => '[' :: Nat.toDigits 10 position.toNat ++ [']']

/-- The canonical text as characters. -/
def chars (path : Path) : List Char :=
  '$' :: path.steps.flatMap writeStep

/-- The canonical text. -/
def write (path : Path) : String :=
  String.ofList path.chars

end Path
end Emend
