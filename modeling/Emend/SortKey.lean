import Emend.Fault

namespace Emend

/-!
# Sort keys

A sort expression is a path and, behind white space, an optional direction.
White space between backquotes belongs to the path.
-/

structure SortKey where
  path : Path
  ascending : Bool
  deriving DecidableEq

namespace SortKey

/-- The text before the first white space that is not between backquotes, and
the text from there on. -/
def splitPath (quoted : Bool) : List Char → List Char × List Char
  | [] => ([], [])
  | c :: rest =>
      if c = Path.backquote then
        let (path, others) := splitPath (!quoted) rest
        (c :: path, others)
      else if Text.isSpace c && !quoted then
        ([], c :: rest)
      else
        let (path, others) := splitPath quoted rest
        (c :: path, others)

/-- The direction of the words behind a path: ascending unless they say
otherwise. -/
def direction (expression : String) (words : List Char) : Except Fault Bool := do
  let (first, rest) := Text.firstWord words
  let ascending ←
    if first.isEmpty || Text.sameIgnoringCase first ['a', 's', 'c'] then pure true
    else if Text.sameIgnoringCase first ['d', 'e', 's', 'c'] then pure false
    else throw (.path (.sortDirection (String.ofList first) expression))
  let (second, _) := Text.firstWord rest
  if second.isEmpty then pure ascending
  else throw (.path (.sortExcess (String.ofList second) expression))

/-- The sort key of an expression. -/
def parse (expression : String) : Except Fault SortKey := do
  let (path, words) := splitPath false (Text.trimStart expression.toList)
  if path.isEmpty then
    throw (.path .emptySortExpression)
  let path ← Path.parse (String.ofList path)
  let ascending ← direction expression words
  pure ⟨path, ascending⟩

/-- The canonical expression of a sort key. -/
def write (key : SortKey) : String :=
  if key.ascending then key.path.write else key.path.write ++ " DESC"

end SortKey
end Emend
