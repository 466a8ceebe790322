import Mathlib
import Emend.Fault
import Emend.Proofs.Path.Reader
import Emend.Proofs.Result

namespace Emend
namespace Path

/-!
# The texts that are paths

Every text that is read as a path is the text of a spelling of that path.  The
proof undoes the two passes of the reader: the characters of a text that is cut
into tokens are put together from spellings of the tokens, and where the tokens
are read as steps these pieces make up a derivation.
-/

/-! ## Tokens as they are spelled -/

/-- The characters that make up a token. -/
inductive SpelledToken : Token -> List Char -> Prop where
  | dollar : SpelledToken .dollar ['$']
  | dot : SpelledToken .dot ['.']
  | openBracket : SpelledToken .openBracket ['[']
  | closeBracket : SpelledToken .closeBracket [']']
  | name (spelling : NameSpelling) : SpelledToken (.name spelling.name) spelling.chars
  | number (digits : List Char) (nonempty : digits ≠ [])
      (ascii : forall c, c ∈ digits -> c.isDigit = true) :
      SpelledToken (.number (String.ofList digits)) digits

/-- A text is made up of spelled tokens. -/
inductive SpelledTokens : List Char -> List Token -> Prop where
  | nil : SpelledTokens [] []
  | cons {token : Token} {piece rest : List Char} {tokens : List Token}
      (first : SpelledToken token piece) (later : SpelledTokens rest tokens) :
      SpelledTokens (piece ++ rest) (token :: tokens)

theorem eq_of_quotedName? {text name rest : List Char}
    (found : quotedName? text = some (name, rest)) :
    text = doubleBackquotes name ++ backquote :: rest := by
  fun_induction quotedName? text generalizing name rest with
  | case1 => cases found
  | case2 =>
      cases found
      rfl
  | case3 => cases found
  | case4 tail ih =>
      rcases Option.map_eq_some_iff.mp found with ⟨⟨inner, others⟩, read, same⟩
      cases same
      rw [ih read]
      rfl
  | case5 =>
      cases found
      rfl
  | case6 c next tail plain ih =>
      rcases Option.map_eq_some_iff.mp found with ⟨⟨inner, others⟩, read, same⟩
      cases same
      have single : doubleBackquotes (c :: inner) = c :: doubleBackquotes inner := by
        simp only [doubleBackquotes, List.flatMap_cons, if_neg plain, List.singleton_append]
      rw [single, ih read, List.cons_append]

theorem spelledToken_of_firstToken {position : Nat} {c : Char} {text rest : List Char}
    {token : Token} (found : firstToken position c text = .ok (token, rest)) :
    Exists fun piece => c :: text = piece ++ rest ∧ SpelledToken token piece := by
  unfold firstToken at found
  split at found
  · next isDollar =>
      cases found
      exact ⟨['$'], congrArg (· :: text) isDollar, .dollar⟩
  split at found
  · next isDot =>
      cases found
      exact ⟨['.'], congrArg (· :: text) isDot, .dot⟩
  split at found
  · next isOpen =>
      cases found
      exact ⟨['['], congrArg (· :: text) isOpen, .openBracket⟩
  split at found
  · next isClose =>
      cases found
      exact ⟨[']'], congrArg (· :: text) isClose, .closeBracket⟩
  split at found
  · next isQuote =>
      split at found
      · next name others read =>
          cases found
          refine ⟨backquote :: (doubleBackquotes name ++ [backquote]), ?_, .name (.quoted name)⟩
          rw [isQuote, eq_of_quotedName? read, List.cons_append, List.append_assoc,
            List.singleton_append]
      · cases found
  split at found
  · next isDigit =>
      cases found
      refine ⟨c :: text.takeWhile Char.isDigit, ?_, .number _ (List.cons_ne_nil _ _) ?_⟩
      · rw [List.cons_append, List.takeWhile_append_dropWhile]
      · exact List.forall_mem_cons.mpr ⟨isDigit, fun d listed => List.mem_takeWhile_imp listed⟩
  split at found
  · next begins =>
      cases found
      have goesOn : forall d, d ∈ text.takeWhile continuesName -> continuesName d = true :=
        fun d listed => List.mem_takeWhile_imp listed
      refine ⟨c :: text.takeWhile continuesName, ?_, .name (.plain c _ begins goesOn)⟩
      rw [List.cons_append, List.takeWhile_append_dropWhile]
  split at found <;> cases found

theorem spelledTokens_of_lexemesFrom (size : Nat) (text : List Char) :
    forall found : List Lexeme, lexemesFrom size text = .ok found ->
      SpelledTokens text (found.map Lexeme.token) := by
  fun_induction lexemesFrom size text with
  | case1 =>
      intro found same
      cases same
      exact .nil
  | case2 => intro found same; cases same
  | case3 => intro found same; cases same
  | case4 c text position token rest read lexemes further ih =>
      intro found same
      cases same
      rcases spelledToken_of_firstToken read with ⟨piece, together, first⟩
      rw [together, List.map_cons]
      exact .cons first (ih lexemes further)

/-! ## Steps as they are spelled -/

/-- An index that is read between brackets has a spelling. -/
theorem exists_indexSpelling {digits : List Char} (nonempty : digits ≠ [])
    (ascii : forall c, c ∈ digits -> c.isDigit = true) {position : UInt32}
    (read : indexOf? (String.ofList digits) = some position) :
    Exists fun spelling : IndexSpelling =>
      spelling.digits = digits ∧ spelling.position = position := by
  simp only [indexOf?, String.toList_ofList] at read
  split at read
  · next inRange => exact ⟨⟨digits, nonempty, ascii, inRange⟩, rfl, Option.some.inj read⟩
  · cases read

/-- What is read behind a complete step is spelled by tails. -/
def Tails (text : List Char) (steps : List Step) : Prop :=
  Exists fun tails : List TailSpelling =>
    tails.flatMap TailSpelling.chars = text ∧ tails.map TailSpelling.step = steps

/-- What is read as a member and the steps behind it is spelled so. -/
def MemberAndTails (text : List Char) (steps : List Step) : Prop :=
  Exists fun first : MemberSpelling => Exists fun tails : List TailSpelling =>
    first.chars ++ tails.flatMap TailSpelling.chars = text ∧
      first.step :: tails.map TailSpelling.step = steps

/-- What is read as an index and the steps behind it is spelled so. -/
def IndexAndTails (text : List Char) (steps : List Step) : Prop :=
  Exists fun first : IndexSpelling => Exists fun tails : List TailSpelling =>
    first.chars ++ tails.flatMap TailSpelling.chars = text ∧
      .index first.position :: tails.map TailSpelling.step = steps

theorem MemberAndTails.dotted {text : List Char} {steps : List Step}
    (spelled : MemberAndTails text steps) : Tails ('.' :: text) steps := by
  rcases spelled with ⟨first, tails, rfl, rfl⟩
  exact ⟨.dotted first :: tails, rfl, rfl⟩

theorem IndexAndTails.tails {text : List Char} {steps : List Step}
    (spelled : IndexAndTails text steps) : Tails text steps := by
  rcases spelled with ⟨first, tails, rfl, rfl⟩
  exact ⟨.index first :: tails, rfl, rfl⟩

theorem IndexAndTails.member {text : List Char} {steps : List Step}
    (spelled : IndexAndTails text steps) : MemberAndTails text steps := by
  rcases spelled with ⟨first, tails, rfl, rfl⟩
  exact ⟨.index first, tails, rfl, rfl⟩

mutual
theorem tails_of_furtherSteps (size : Nat) :
    forall (found : List Lexeme) {text : List Char} {steps : List Step},
      SpelledTokens text (found.map Lexeme.token) ->
      furtherSteps size found = .ok steps -> Tails text steps
  | [], text, steps, spelled, read => by
      cases spelled
      rw [furtherSteps] at read
      cases read
      exact ⟨[], rfl, rfl⟩
  | ⟨.openBracket, _⟩ :: rest, text, steps, spelled, read => by
      rw [furtherSteps] at read
      cases spelled with
      | cons first later =>
          cases first
          exact (index_of_bracketed size rest later read).tails
  | ⟨.dot, _⟩ :: rest, text, steps, spelled, read => by
      rw [furtherSteps] at read
      cases spelled with
      | cons first later =>
          cases first
          exact (member_of_member size rest later read).dotted
  | ⟨.dollar, _⟩ :: _, _, _, _, read | ⟨.closeBracket, _⟩ :: _, _, _, _, read
  | ⟨.name _, _⟩ :: _, _, _, _, read | ⟨.number _, _⟩ :: _, _, _, _, read => by
      simp [furtherSteps] at read

theorem member_of_member (size : Nat) :
    forall (found : List Lexeme) {text : List Char} {steps : List Step},
      SpelledTokens text (found.map Lexeme.token) ->
      member size found = .ok steps -> MemberAndTails text steps
  | ⟨.name _, _⟩ :: rest, text, steps, spelled, read => by
      rw [member] at read
      rcases Result.exists_of_map_eq_ok read with ⟨behind, further, rfl⟩
      cases spelled with
      | cons first later =>
          rcases tails_of_furtherSteps size rest later further with ⟨tails, rfl, rfl⟩
          cases first with
          | name spelling => exact ⟨.name spelling, tails, rfl, rfl⟩
  | ⟨.openBracket, _⟩ :: rest, text, steps, spelled, read => by
      rw [member] at read
      cases spelled with
      | cons first later =>
          cases first
          exact (index_of_bracketed size rest later read).member
  | [], _, _, _, read | ⟨.dollar, _⟩ :: _, _, _, _, read | ⟨.closeBracket, _⟩ :: _, _, _, _, read
  | ⟨.dot, _⟩ :: _, _, _, _, read | ⟨.number _, _⟩ :: _, _, _, _, read => by
      simp [member] at read

theorem index_of_bracketed (size : Nat) :
    forall (found : List Lexeme) {text : List Char} {steps : List Step},
      SpelledTokens text (found.map Lexeme.token) ->
      bracketed size found = .ok steps -> IndexAndTails ('[' :: text) steps
  | ⟨.number _, _⟩ :: rest, text, steps, spelled, read => by
      rw [bracketed] at read
      split at read
      · cases read
      · next position inRange =>
          cases spelled with
          | cons first later =>
              rcases tails_of_closed size rest later read with
                ⟨text, behind, rfl, rfl, tails, rfl, rfl⟩
              cases first with
              | number digits nonempty ascii =>
                  rcases exists_indexSpelling nonempty ascii inRange with ⟨spelling, rfl, rfl⟩
                  refine ⟨spelling, tails, ?_, rfl⟩
                  rw [IndexSpelling.chars, List.cons_append, List.append_assoc,
                    List.singleton_append]
  | [], _, _, _, read | ⟨.dollar, _⟩ :: _, _, _, _, read | ⟨.closeBracket, _⟩ :: _, _, _, _, read
  | ⟨.dot, _⟩ :: _, _, _, _, read | ⟨.name _, _⟩ :: _, _, _, _, read
  | ⟨.openBracket, _⟩ :: _, _, _, _, read => by
      simp [bracketed] at read

theorem tails_of_closed (size : Nat) {index : UInt32} :
    forall (found : List Lexeme) {text : List Char} {steps : List Step},
      SpelledTokens text (found.map Lexeme.token) ->
      closed size index found = .ok steps ->
      Exists fun rest => Exists fun behind =>
        text = ']' :: rest ∧ steps = .index index :: behind ∧ Tails rest behind
  | ⟨.closeBracket, _⟩ :: rest, text, steps, spelled, read => by
      rw [closed] at read
      rcases Result.exists_of_map_eq_ok read with ⟨behind, further, rfl⟩
      cases spelled with
      | cons first later =>
          cases first
          exact ⟨_, behind, rfl, rfl, tails_of_furtherSteps size rest later further⟩
  | [], _, _, _, read | ⟨.dollar, _⟩ :: _, _, _, _, read | ⟨.number _, _⟩ :: _, _, _, _, read
  | ⟨.dot, _⟩ :: _, _, _, _, read | ⟨.name _, _⟩ :: _, _, _, _, read
  | ⟨.openBracket, _⟩ :: _, _, _, _, read => by
      simp [closed] at read
end

/-! ## Paths as they are spelled -/

theorem MemberAndTails.spelling {text : List Char} {steps : List Step}
    (spelled : MemberAndTails text steps) :
    Exists fun spelling : Spelling => spelling.chars = text ∧ spelling.steps = steps := by
  rcases spelled with ⟨first, tails, rfl, rfl⟩
  exact ⟨.bare first tails, rfl, rfl⟩

theorem spelling_of_allSteps (size : Nat) (found : List Lexeme) {text : List Char}
    {steps : List Step} (spelled : SpelledTokens text (found.map Lexeme.token))
    (read : allSteps size found = .ok steps) :
    Exists fun spelling : Spelling => spelling.chars = text ∧ spelling.steps = steps := by
  rcases found with _ | ⟨⟨token, at_⟩, rest⟩
  · cases spelled
    cases read
    exact ⟨.empty, rfl, rfl⟩
  cases token with
  | dollar =>
      cases spelled with
      | cons first later =>
          cases first
          rcases rest with _ | ⟨⟨second, behind⟩, others⟩
          · cases later
            cases read
            exact ⟨.dollar, rfl, rfl⟩
          cases second with
          | dot =>
              cases later with
              | cons point named =>
                  cases point
                  rw [allSteps] at read
                  rcases member_of_member size others named read with ⟨member, tails, rfl, rfl⟩
                  exact ⟨.dollarDot member tails, rfl, rfl⟩
          | openBracket =>
              cases later with
              | cons bracket indexed =>
                  cases bracket
                  rw [allSteps] at read
                  rcases index_of_bracketed size others indexed read with
                    ⟨index, tails, same, rfl⟩
                  exact ⟨.dollarIndex index tails, congrArg _ same, rfl⟩
          | dollar | closeBracket | name | number => simp [allSteps] at read
  | openBracket =>
      cases spelled with
      | cons first later =>
          cases first
          rw [allSteps] at read
          exact (index_of_bracketed size rest later read).member.spelling
  | dot | closeBracket | name | number =>
      rw [allSteps] at read
      · exact (member_of_member size _ spelled read).spelling
      all_goals simp

/-- A text that is read as a path is made up of tokens. -/
theorem exists_spelledTokens {text : List Char} {path : Path} (read : ofChars text = .ok path) :
    Exists fun tokens => SpelledTokens text tokens := by
  rw [ofChars] at read
  split at read
  · cases read
  · next found cut => exact ⟨_, spelledTokens_of_lexemesFrom text.length text found cut⟩

/-- A text that is read as a path spells it. -/
theorem exists_spelling {text : List Char} {path : Path} (read : ofChars text = .ok path) :
    Exists fun spelling : Spelling => spelling.chars = text ∧ spelling.path = path := by
  rw [ofChars] at read
  split at read
  · cases read
  · next found cut =>
      rcases Result.exists_of_map_eq_ok read with ⟨steps, readSteps, rfl⟩
      have spelled := spelledTokens_of_lexemesFrom text.length text found cut
      rcases spelling_of_allSteps text.length found spelled readSteps with ⟨spelling, same, rfl⟩
      exact ⟨spelling, same, rfl⟩

theorem read_eq_ok_iff {text : String} {path : Path} :
    read text = .ok path <->
      Exists fun spelling : Spelling => spelling.text = text ∧ spelling.path = path := by
  constructor
  · intro found
    rcases exists_spelling found with ⟨spelling, same, spelled⟩
    refine ⟨spelling, ?_, spelled⟩
    rw [Spelling.text, same, String.ofList_toList]
  · rintro ⟨spelling, rfl, rfl⟩
    exact spelling.read_text

/-- The root has two spellings. -/
theorem Spelling.isRoot_path (spelling : Spelling) :
    spelling.path.isRoot = true <-> spelling.text = "" ∨ spelling.text = "$" := by
  constructor
  · intro root
    cases spelling with
    | empty => exact Or.inl rfl
    | dollar => exact Or.inr rfl
    | bare | dollarDot | dollarIndex => cases root
  · rintro (isEmpty | isDollar)
    · have same : spelling = .empty :=
        Spelling.eq_of_chars_eq (String.ofList_injective isEmpty)
      rw [same]
      rfl
    · have same : spelling = .dollar :=
        Spelling.eq_of_chars_eq (String.ofList_injective isDollar)
      rw [same]
      rfl

theorem read_root {text : String} (spelled : text = "" ∨ text = "$") : read text = .ok root := by
  rcases spelled with rfl | rfl
  · exact Spelling.empty.read_text
  · exact Spelling.dollar.read_text

/-! ## Paths with faults -/

theorem parseAllowingRoot_eq_ok_iff {text : String} {path : Path} :
    parseAllowingRoot text = .ok path <-> read text = .ok path := by
  rw [parseAllowingRoot]
  cases read text with
  | error cause => simp [Except.mapError]
  | ok found => simp [Except.mapError]

/-- The reader that refuses the root differs from the other one on the spellings
of the root only. -/
theorem parse_eq (text : String) :
    parse text =
      if text = "" ∨ text = "$" then .error (.emptyPath (.text text))
      else parseAllowingRoot text := by
  have unfolded : parse text = (parseAllowingRoot text).bind fun path =>
      if path.isRoot then .error (.emptyPath (.text text)) else .ok path := rfl
  rw [unfolded]
  cases found : parseAllowingRoot text with
  | error fault =>
      split
      · next spelled =>
          rw [parseAllowingRoot_eq_ok_iff.mpr (read_root spelled)] at found
          cases found
      · rfl
  | ok path =>
      rcases read_eq_ok_iff.mp (parseAllowingRoot_eq_ok_iff.mp found) with ⟨spelling, rfl, rfl⟩
      simp only [Except.bind, spelling.isRoot_path]

theorem parseFor_eq_ok_iff {place : BelowRoot} {text : String} {path : Path} :
    parseFor place text = .ok path ↔ parseAllowingRoot text = .ok path ∧ path.isRoot = false := by
  constructor
  · intro parsed
    rcases Result.exists_of_bind_eq_ok parsed with ⟨found, read, below⟩
    split at below
    · cases below
    · next notRoot =>
        cases below
        exact ⟨read, Bool.eq_false_iff.mpr notRoot⟩
  · rintro ⟨read, notRoot⟩
    rw [parseFor, read]
    exact if_neg (Bool.eq_false_iff.mp notRoot)

/-- The reader of paths accepts the texts of the spellings and no others.  It
gives the path that is spelled, of which there is one since the text determines
the spelling, and every other text is malformed.  The reader that refuses the
root refuses its two spellings besides. -/
theorem parse_spellings :
    (forall (text : String) (path : Path), parseAllowingRoot text = .ok path <->
      Exists fun spelling : Spelling => spelling.text = text ∧ spelling.path = path) ∧
    (forall left right : Spelling, left.text = right.text -> left = right) ∧
    (forall text : String, (¬Exists fun spelling : Spelling => spelling.text = text) ->
      Exists fun cause => parseAllowingRoot text = .error (.path (.malformed text cause))) ∧
    (forall text : String, parse text =
      if text = "" ∨ text = "$" then .error (.emptyPath (.text text))
      else parseAllowingRoot text) := by
  refine ⟨?_, ?_, ?_, parse_eq⟩
  · intro text path
    exact parseAllowingRoot_eq_ok_iff.trans read_eq_ok_iff
  · intro left right same
    exact Spelling.eq_of_chars_eq (String.ofList_injective same)
  · intro text unspelled
    rw [parseAllowingRoot]
    cases found : read text with
    | error cause => exact ⟨cause, rfl⟩
    | ok path =>
        rcases read_eq_ok_iff.mp found with ⟨spelling, same, _⟩
        exact False.elim (unspelled ⟨spelling, same⟩)

/-- A backquote inside a quoted name, an index with zeros in front, and an index
behind a point. -/
def crowded : Spelling :=
  .dollarDot (.name (.quoted ['a', '`', 'b']))
    [.index ⟨['0', '0', '7'], by simp, by simp, by cbv⟩,
      .dotted (.index ⟨['0'], by simp, by simp, by cbv⟩),
      .dotted (.name (.plain 'x' ['2'] (by cbv) (by simp; cbv)))]

theorem parse_crowded :
    parseAllowingRoot "$.`a``b`[007].[0].x2" =
      .ok ⟨[.field "a`b", .index 7, .index 0, .field "x2"]⟩ ∧
    (forall spelling : Spelling, spelling.text = "$.`a``b`[007].[0].x2" ->
      spelling = crowded) ∧
    (Exists fun cause =>
      parseAllowingRoot "a[4294967296]" = .error (.path (.malformed "a[4294967296]" cause))) ∧
    parse "$" = .error (.emptyPath (.text "$")) := by
  have text : crowded.text = "$.`a``b`[007].[0].x2" := by cbv
  have path : crowded.path = ⟨[.field "a`b", .index 7, .index 0, .field "x2"]⟩ := by cbv
  refine ⟨(parse_spellings.1 _ _).mpr ⟨crowded, text, path⟩, ?_, ?_, ?_⟩
  · intro spelling same
    exact parse_spellings.2.1 spelling crowded (same.trans text.symm)
  · apply parse_spellings.2.2.1
    rintro ⟨spelling, same⟩
    have accepted := (parse_spellings.1 "a[4294967296]" spelling.path).mpr ⟨spelling, same, rfl⟩
    have refused : parseAllowingRoot "a[4294967296]" =
        .error (.path (.malformed "a[4294967296]" (.indexOutOfRange "4294967296" 2))) := by cbv
    rw [refused] at accepted
    cases accepted
  · exact (parse_spellings.2.2.2 "$").trans (if_pos (Or.inr rfl))

end Path
end Emend
