import Emend.Text.Ranges

namespace Emend
namespace Text

/-!
# Character classes

Three classes decide how paths and sort expressions are cut into words:
alphabetic characters, alphanumeric characters and white space.  They are the
classes of the character standard, not those of ASCII.  The digits of an array
index are the exception: there only `0` to `9` count, which is
`Char.isDigit`.
-/

/-- Whether one of the ranges, which must be in increasing order, holds the
code point. -/
def inRanges : List (Nat × Nat) → Nat → Bool
  | [], _ => false
  | (low, high) :: rest, point =>
      if point < low then false
      else if point ≤ high then true
      else inRanges rest point

/-- Characters that may begin a plain name. -/
def isAlphabetic (c : Char) : Bool :=
  inRanges alphabeticRanges c.toNat

/-- Characters that may continue a plain name: alphabetic ones and the digits,
letter numbers and other numbers of every script. -/
def isAlphanumeric (c : Char) : Bool :=
  isAlphabetic c || inRanges numericRanges c.toNat

/-- White space. -/
def isSpace (c : Char) : Bool :=
  inRanges whiteSpaceRanges c.toNat

/-! ## Cutting at white space -/

/-- The text without its leading white space. -/
def trimStart (text : List Char) : List Char :=
  text.dropWhile isSpace

/-- The text without leading and trailing white space. -/
def trim (text : List Char) : List Char :=
  (trimStart (trimStart text).reverse).reverse

/-- The first maximal run of characters that are not white space, and what
follows it.  The run is empty exactly when the text is all white space. -/
def firstWord (text : List Char) : List Char × List Char :=
  (trimStart text).span fun c => !isSpace c

/-- Equality of texts in which ASCII letters of either case count as equal. -/
def sameIgnoringCase (left right : List Char) : Bool :=
  left.map Char.toLower == right.map Char.toLower

end Text
end Emend
