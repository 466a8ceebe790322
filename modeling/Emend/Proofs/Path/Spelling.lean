import Emend.Path.Reader
import Emend.Proofs.Path.Lexeme

namespace Emend
namespace Path

/-!
# Spellings of paths

A path can be written in many ways.  Each way is a derivation in this grammar,
where `*` is repetition and the first alternative of a path is the empty text:

    path   ::=  | "$" | member tail* | "$." member tail* | "$" index tail*
    tail   ::=  index | "." member
    member ::=  name | index
    name   ::=  a plain name, or any name between backquotes
    index  ::=  "[" digits "]"

A spelling is such a derivation.  It knows its text and the path it spells, and
since the conditions on names and indices are part of it, every spelling has
both.  No two spellings have the same text.
-/

/-! ## Names and indices -/

/-- A name as it is spelled.  Between backquotes any name may stand, the empty
one as well, and each backquote in it is written twice. -/
inductive NameSpelling where
  | plain (first : Char) (others : List Char) (begins : beginsName first = true)
      (goesOn : forall c, c ∈ others -> continuesName c = true)
  | quoted (name : List Char)

namespace NameSpelling

def chars : NameSpelling -> List Char
  | .plain first others _ _ => first :: others
  | .quoted name => backquote :: (doubleBackquotes name ++ [backquote])

/-- The name itself, without quotes. -/
def name : NameSpelling -> String
  | .plain first others _ _ => String.ofList (first :: others)
  | .quoted name => String.ofList name

end NameSpelling

/-- An index as it is spelled, by its digits.  There may be any number of zeros
in front, but the value must fit 32 bits. -/
@[ext]
structure IndexSpelling where
  digits : List Char
  nonempty : digits ≠ []
  ascii : forall c, c ∈ digits -> c.isDigit = true
  inRange : Nat.ofDigitChars 10 digits 0 < UInt32.size

namespace IndexSpelling

def chars (spelling : IndexSpelling) : List Char :=
  '[' :: (spelling.digits ++ [']'])

def position (spelling : IndexSpelling) : UInt32 :=
  UInt32.ofNat (Nat.ofDigitChars 10 spelling.digits 0)

end IndexSpelling

/-! ## Steps and paths -/

/-- What may stand at the beginning or behind a point. -/
inductive MemberSpelling where
  | name (spelling : NameSpelling)
  | index (spelling : IndexSpelling)

namespace MemberSpelling

def chars : MemberSpelling -> List Char
  | .name spelling => spelling.chars
  | .index spelling => spelling.chars

def step : MemberSpelling -> Step
  | .name spelling => .field spelling.name
  | .index spelling => .index spelling.position

end MemberSpelling

/-- What may stand behind a complete step. -/
inductive TailSpelling where
  | index (spelling : IndexSpelling)
  | dotted (member : MemberSpelling)

namespace TailSpelling

def chars : TailSpelling -> List Char
  | .index spelling => spelling.chars
  | .dotted member => '.' :: member.chars

def step : TailSpelling -> Step
  | .index spelling => .index spelling.position
  | .dotted member => member.step

end TailSpelling

inductive Spelling where
  | empty
  | dollar
  | bare (first : MemberSpelling) (tails : List TailSpelling)
  | dollarDot (first : MemberSpelling) (tails : List TailSpelling)
  | dollarIndex (first : IndexSpelling) (tails : List TailSpelling)

namespace Spelling

def chars : Spelling -> List Char
  | .empty => []
  | .dollar => ['$']
  | .bare first tails => first.chars ++ tails.flatMap TailSpelling.chars
  | .dollarDot first tails => '$' :: '.' :: (first.chars ++ tails.flatMap TailSpelling.chars)
  | .dollarIndex first tails => '$' :: (first.chars ++ tails.flatMap TailSpelling.chars)

def steps : Spelling -> List Step
  | .empty | .dollar => []
  | .bare first tails | .dollarDot first tails => first.step :: tails.map TailSpelling.step
  | .dollarIndex first tails => .index first.position :: tails.map TailSpelling.step

/-- The text of a spelling. -/
def text (spelling : Spelling) : String :=
  String.ofList spelling.chars

/-- The path that is spelled. -/
def path (spelling : Spelling) : Path :=
  ⟨spelling.steps⟩

end Spelling

/-! ## What stands behind a step -/

/-- Behind a complete step a text ends, or goes on with a point or a bracket,
neither of which can be taken for a part of the step. -/
def StepEnd (rest : List Char) : Prop :=
  forall c tail, rest = c :: tail -> c = '.' ∨ c = '['

theorem StepEnd.stopsAt {rest : List Char} (stepEnd : StepEnd rest) {p : Char -> Bool}
    (dot : p '.' = false) (bracket : p '[' = false) : StopsAt p rest := by
  intro c tail same
  rcases stepEnd c tail same with isDot | isBracket
  · rw [isDot]
    exact dot
  · rw [isBracket]
    exact bracket

theorem stepEnd_tails (tails : List TailSpelling) :
    StepEnd (tails.flatMap TailSpelling.chars) := by
  intro c rest same
  cases tails with
  | nil => cases same
  | cons tail others =>
      cases tail with
      | index spelling =>
          cases same
          exact Or.inr rfl
      | dotted member =>
          cases same
          exact Or.inl rfl

/-! ## The text determines the spelling -/

theorem NameSpelling.eq_of_append_eq {left right : NameSpelling} {leftRest rightRest : List Char}
    (leftEnd : StepEnd leftRest) (rightEnd : StepEnd rightRest)
    (same : left.chars ++ leftRest = right.chars ++ rightRest) :
    left = right ∧ leftRest = rightRest := by
  have quoteBegins : beginsName backquote = false := by decide
  cases left with
  | plain first others begins goesOn =>
      cases right with
      | plain second further beginsToo goesOnToo =>
          rcases List.cons_eq_cons.mp same with ⟨rfl, run⟩
          have stops : StopsAt continuesName leftRest := leftEnd.stopsAt (by decide) (by decide)
          have stopsToo : StopsAt continuesName rightRest :=
            rightEnd.stopsAt (by decide) (by decide)
          have sameName : others = further := by
            rw [← takeWhile_run goesOn stops, ← takeWhile_run goesOnToo stopsToo]
            exact congrArg (List.takeWhile continuesName) run
          subst further
          exact ⟨rfl, List.append_cancel_left run⟩
      | quoted name =>
          rcases List.cons_eq_cons.mp same with ⟨rfl, _⟩
          rw [quoteBegins] at begins
          cases begins
  | quoted name =>
      cases right with
      | plain second further beginsToo goesOnToo =>
          rcases List.cons_eq_cons.mp same with ⟨rfl, _⟩
          rw [quoteBegins] at beginsToo
          cases beginsToo
      | quoted other =>
          have inside := (List.cons_eq_cons.mp same).2
          simp only [List.append_eq, List.append_assoc, List.singleton_append] at inside
          have read := quotedName?_doubleBackquotes (leftEnd.stopsAt (by decide) (by decide)) name
          have readToo :=
            quotedName?_doubleBackquotes (rightEnd.stopsAt (by decide) (by decide)) other
          rw [inside, readToo] at read
          cases read
          exact ⟨rfl, rfl⟩

theorem stopsAt_closeBracket (rest : List Char) : StopsAt Char.isDigit (']' :: rest) :=
  stopsAt_cons rest rfl

theorem IndexSpelling.eq_of_append_eq {left right : IndexSpelling}
    {leftRest rightRest : List Char}
    (same : left.chars ++ leftRest = right.chars ++ rightRest) :
    left = right ∧ leftRest = rightRest := by
  have inside := (List.cons_eq_cons.mp same).2
  simp only [List.append_eq, List.append_assoc, List.singleton_append] at inside
  have sameDigits : left.digits = right.digits := by
    rw [← takeWhile_run left.ascii (stopsAt_closeBracket leftRest),
      ← takeWhile_run right.ascii (stopsAt_closeBracket rightRest)]
    exact congrArg (List.takeWhile Char.isDigit) inside
  rw [sameDigits] at inside
  exact ⟨IndexSpelling.ext sameDigits, (List.cons_eq_cons.mp (List.append_cancel_left inside)).2⟩

/-- No name begins with one of the signs that structure a path. -/
theorem NameSpelling.append_ne_cons (spelling : NameSpelling) {sign : Char}
    (never : beginsName sign = false) (unquoted : sign ≠ backquote) (rest text : List Char) :
    spelling.chars ++ rest ≠ sign :: text := by
  intro same
  cases spelling with
  | plain first others begins goesOn =>
      rcases List.cons_eq_cons.mp same with ⟨rfl, _⟩
      rw [never] at begins
      cases begins
  | quoted name => exact unquoted (List.cons_eq_cons.mp same).1.symm

theorem MemberSpelling.eq_of_append_eq {left right : MemberSpelling}
    {leftRest rightRest : List Char} (leftEnd : StepEnd leftRest) (rightEnd : StepEnd rightRest)
    (same : left.chars ++ leftRest = right.chars ++ rightRest) :
    left = right ∧ leftRest = rightRest := by
  cases left with
  | name spelling =>
      cases right with
      | name other =>
          rcases NameSpelling.eq_of_append_eq leftEnd rightEnd same with ⟨rfl, sameRest⟩
          exact ⟨rfl, sameRest⟩
      | index other =>
          exact False.elim (spelling.append_ne_cons (by decide) (by decide) _ _ same)
  | index spelling =>
      cases right with
      | name other =>
          exact False.elim (other.append_ne_cons (by decide) (by decide) _ _ same.symm)
      | index other =>
          rcases IndexSpelling.eq_of_append_eq same with ⟨rfl, sameRest⟩
          exact ⟨rfl, sameRest⟩

theorem TailSpelling.eq_of_flatMap_eq (left : List TailSpelling) :
    forall right : List TailSpelling,
      left.flatMap TailSpelling.chars = right.flatMap TailSpelling.chars -> left = right := by
  induction left with
  | nil =>
      intro right same
      cases right with
      | nil => rfl
      | cons tail others => cases tail <;> cases same
  | cons tail others ih =>
      intro right same
      cases right with
      | nil => cases tail <;> cases same
      | cons second further =>
          rw [List.flatMap_cons, List.flatMap_cons] at same
          cases tail with
          | index spelling =>
              cases second with
              | index other =>
                  rcases IndexSpelling.eq_of_append_eq same with ⟨rfl, sameRest⟩
                  rw [ih further sameRest]
              | dotted member => cases (List.cons_eq_cons.mp same).1
          | dotted member =>
              cases second with
              | index other => cases (List.cons_eq_cons.mp same).1
              | dotted other =>
                  rcases MemberSpelling.eq_of_append_eq (stepEnd_tails others)
                    (stepEnd_tails further) (List.cons_eq_cons.mp same).2 with ⟨rfl, sameRest⟩
                  rw [ih further sameRest]

theorem MemberSpelling.append_ne_nil (spelling : MemberSpelling) (rest : List Char) :
    spelling.chars ++ rest ≠ [] := by
  intro same
  cases spelling with
  | name spelling => cases spelling <;> cases same
  | index spelling => cases same

theorem MemberSpelling.append_ne_dollar (spelling : MemberSpelling) (rest text : List Char) :
    spelling.chars ++ rest ≠ '$' :: text := by
  intro same
  cases spelling with
  | name spelling => exact spelling.append_ne_cons (by decide) (by decide) _ _ same
  | index spelling => cases same

/-- The first two characters of a text tell the form of the whole spelling, and
inside each form the parts are told apart one after another. -/
theorem Spelling.eq_of_chars_eq {left right : Spelling} (same : left.chars = right.chars) :
    left = right := by
  cases left with
  | empty =>
      cases right with
      | empty => rfl
      | bare first tails => exact False.elim (first.append_ne_nil _ same.symm)
      | dollar | dollarDot | dollarIndex => cases same
  | dollar =>
      cases right with
      | dollar => rfl
      | bare first tails => exact False.elim (first.append_ne_dollar _ _ same.symm)
      | empty | dollarDot | dollarIndex => cases same
  | bare first tails =>
      cases right with
      | empty => exact False.elim (first.append_ne_nil _ same)
      | bare second others =>
          rcases MemberSpelling.eq_of_append_eq (stepEnd_tails tails) (stepEnd_tails others) same
            with ⟨rfl, sameTails⟩
          rw [TailSpelling.eq_of_flatMap_eq tails others sameTails]
      | dollar | dollarDot | dollarIndex => exact False.elim (first.append_ne_dollar _ _ same)
  | dollarDot first tails =>
      cases right with
      | bare second others => exact False.elim (second.append_ne_dollar _ _ same.symm)
      | dollarDot second others =>
          have behind := (List.cons_eq_cons.mp (List.cons_eq_cons.mp same).2).2
          rcases MemberSpelling.eq_of_append_eq (stepEnd_tails tails) (stepEnd_tails others) behind
            with ⟨rfl, sameTails⟩
          rw [TailSpelling.eq_of_flatMap_eq tails others sameTails]
      | empty | dollar | dollarIndex => cases same
  | dollarIndex first tails =>
      cases right with
      | bare second others => exact False.elim (second.append_ne_dollar _ _ same.symm)
      | dollarIndex second others =>
          rcases IndexSpelling.eq_of_append_eq (List.cons_eq_cons.mp same).2 with ⟨rfl, sameTails⟩
          rw [TailSpelling.eq_of_flatMap_eq tails others sameTails]
      | empty | dollar | dollarDot => cases same

end Path
end Emend
