import Emend.Path

namespace Emend
namespace Path

/-!
# Lexemes of paths

The text of a path is cut into lexemes before it is read as a path, so a
character that belongs to no lexeme is reported before any fault in their
order.  Positions count characters from the start of the text.
-/

inductive Token where
  | dollar
  | dot
  | openBracket
  | closeBracket
  /-- A field name, quotes removed. -/
  | name (text : String)
  /-- A run of digits as it is written. -/
  | number (digits : String)
  deriving DecidableEq

/-- A token and the position at which it begins. -/
structure Lexeme where
  token : Token
  position : Nat
  deriving DecidableEq

/-- What a reader of paths expected to find. -/
inductive Expectation where
  | stepAfterDollar
  | furtherStep
  | fieldName
  | arrayIndex
  | closeBracket
  deriving DecidableEq

/-- The ways in which a text fails to be a path. -/
inductive Malformed where
  | unterminatedQuote (start : Nat)
  | whiteSpace (position : Nat)
  | strayCharacter (c : Char) (position : Nat)
  /-- Something else stands where a part of the path is expected; `none` is the
  end of the text. -/
  | unexpected (expected : Expectation) (found : Option Token) (position : Nat)
  | indexOutOfRange (digits : String) (position : Nat)
  deriving DecidableEq

/-! ## Single lexemes -/

/-- The name after an opening backquote, and what follows the closing one. -/
def quotedName? : List Char → Option (List Char × List Char)
  | [] => none
  | [c] => if c = backquote then some ([], []) else none
  | c :: next :: rest =>
      if c = backquote then
        if next = backquote then
          (quotedName? rest).map fun (name, rest) => (backquote :: name, rest)
        else
          some ([], next :: rest)
      else
        (quotedName? (next :: rest)).map fun (name, rest) => (c :: name, rest)

/-- The token in front of a text that is not empty, and what follows it. -/
def firstToken (position : Nat) (c : Char) (rest : List Char) :
    Except Malformed (Token × List Char) :=
  if c = '$' then .ok (.dollar, rest)
  else if c = '.' then .ok (.dot, rest)
  else if c = '[' then .ok (.openBracket, rest)
  else if c = ']' then .ok (.closeBracket, rest)
  else if c = backquote then
    match quotedName? rest with
    | some (name, rest) => .ok (.name (String.ofList name), rest)
    | none => .error (.unterminatedQuote position)
  else if c.isDigit then
    .ok (.number (String.ofList (c :: rest.takeWhile Char.isDigit)), rest.dropWhile Char.isDigit)
  else if beginsName c then
    .ok (.name (String.ofList (c :: rest.takeWhile continuesName)), rest.dropWhile continuesName)
  else if Text.isSpace c then
    .error (.whiteSpace position)
  else
    .error (.strayCharacter c position)

/-! ## Every token shortens the text -/

theorem length_dropWhile_le (p : Char → Bool) (text : List Char) :
    (text.dropWhile p).length ≤ text.length := by
  induction text with
  | nil => exact Nat.le_refl _
  | cons c rest ih =>
      simp only [List.dropWhile_cons]
      split
      · exact Nat.le_succ_of_le ih
      · exact Nat.le_refl _

theorem length_of_quotedName? {text name rest : List Char}
    (found : quotedName? text = some (name, rest)) : rest.length ≤ text.length := by
  fun_induction quotedName? text generalizing name rest with
  | case1 => cases found
  | case2 => cases found; simp
  | case3 => cases found
  | case4 tail ih =>
      obtain ⟨inner, read, same⟩ := Option.map_eq_some_iff.mp found
      obtain ⟨innerName, innerRest⟩ := inner
      cases same
      have shorter := ih read
      simp only [List.length_cons]
      omega
  | case5 => cases found; simp
  | case6 c next tail plain ih =>
      obtain ⟨inner, read, same⟩ := Option.map_eq_some_iff.mp found
      obtain ⟨innerName, innerRest⟩ := inner
      cases same
      have shorter := ih read
      simp only [List.length_cons] at shorter ⊢
      omega

theorem length_of_firstToken {position : Nat} {c : Char} {text rest : List Char} {token : Token}
    (found : firstToken position c text = .ok (token, rest)) : rest.length ≤ text.length := by
  unfold firstToken at found
  repeat' split at found
  all_goals cases found
  case h_1.refl read => exact length_of_quotedName? read
  all_goals first
    | exact Nat.le_refl _
    | exact length_dropWhile_le _ _

/-! ## Whole texts -/

/-- The lexemes of the end of a text whose whole length is `size`. -/
def lexemesFrom (size : Nat) : List Char → Except Malformed (List Lexeme)
  | [] => .ok []
  | c :: text =>
      let position := size - (text.length + 1)
      match _found : firstToken position c text with
      | .error fault => .error fault
      | .ok (token, rest) =>
          match lexemesFrom size rest with
          | .error fault => .error fault
          | .ok lexemes => .ok (⟨token, position⟩ :: lexemes)
  termination_by text => text.length
  decreasing_by
    have shorter := length_of_firstToken _found
    simp only [List.length_cons]
    omega

/-- The lexemes of a text. -/
def lexemes (text : List Char) : Except Malformed (List Lexeme) :=
  lexemesFrom text.length text

end Path
end Emend
