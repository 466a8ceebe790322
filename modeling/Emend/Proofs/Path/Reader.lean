import Mathlib.Data.List.Basic
import Emend.Path.Reader
import Emend.Proofs.Path.Spelling

namespace Emend
namespace Path

/-!
# Reading spellings

The text of a path is read in two passes, so the proof that a spelling is read
as its path has two parts with the tokens of the spelling between them.  The
first part needs to know what stands behind each step: the end, a point or a
bracket, and none of these can be taken for a part of the step.  The second
part does not look at characters any more.

The canonical text of a path is the text of one of its spellings, and so it is
read as the path.
-/

/-! ## The tokens of a spelling -/

def IndexSpelling.tokens (spelling : IndexSpelling) : List Token :=
  [.openBracket, .number (String.ofList spelling.digits), .closeBracket]

def MemberSpelling.tokens : MemberSpelling -> List Token
  | .name spelling => [.name spelling.name]
  | .index spelling => spelling.tokens

def TailSpelling.tokens : TailSpelling -> List Token
  | .index spelling => spelling.tokens
  | .dotted member => .dot :: member.tokens

def Spelling.tokens : Spelling -> List Token
  | .empty => []
  | .dollar => [.dollar]
  | .bare first tails => first.tokens ++ tails.flatMap TailSpelling.tokens
  | .dollarDot first tails =>
      .dollar :: .dot :: (first.tokens ++ tails.flatMap TailSpelling.tokens)
  | .dollarIndex first tails => .dollar :: (first.tokens ++ tails.flatMap TailSpelling.tokens)

/-! ## From characters to tokens -/

theorem NameSpelling.cutInto (spelling : NameSpelling) {rest : List Char} {tokens : List Token}
    (stepEnd : StepEnd rest) (later : CutInto rest tokens) :
    CutInto (spelling.chars ++ rest) (.name spelling.name :: tokens) := by
  cases spelling with
  | plain first others begins goesOn =>
      have stops : StopsAt continuesName rest := stepEnd.stopsAt (by decide) (by decide)
      exact CutInto.cons (firstToken_plain begins goesOn stops) later
  | quoted name =>
      have stops : StopsAt (fun c => c == backquote) rest :=
        stepEnd.stopsAt (by decide) (by decide)
      have text : backquote :: (doubleBackquotes name ++ [backquote]) ++ rest =
          backquote :: (doubleBackquotes name ++ backquote :: rest) := by
        rw [List.cons_append, List.append_assoc, List.singleton_append]
      rw [chars, text]
      exact CutInto.cons (firstToken_quoted stops name) later

theorem IndexSpelling.cutInto (spelling : IndexSpelling) {rest : List Char} {tokens : List Token}
    (later : CutInto rest tokens) :
    CutInto (spelling.chars ++ rest) (spelling.tokens ++ tokens) := by
  rcases spelling with ⟨digits, nonempty, ascii, inRange⟩
  have closing : CutInto (']' :: rest) (.closeBracket :: tokens) :=
    CutInto.cons (fun _ => rfl) later
  have text : '[' :: (digits ++ [']']) ++ rest = '[' :: (digits ++ ']' :: rest) := by
    rw [List.cons_append, List.append_assoc, List.singleton_append]
  simp only [chars, text]
  refine CutInto.cons (fun _ => rfl) ?_
  cases digits with
  | nil => exact False.elim (nonempty rfl)
  | cons digit run =>
      have parts := List.forall_mem_cons.mp ascii
      exact CutInto.cons (firstToken_digits parts.1 parts.2 (stopsAt_closeBracket rest)) closing

theorem MemberSpelling.cutInto (spelling : MemberSpelling) {rest : List Char}
    {tokens : List Token} (stepEnd : StepEnd rest) (later : CutInto rest tokens) :
    CutInto (spelling.chars ++ rest) (spelling.tokens ++ tokens) := by
  cases spelling with
  | name spelling => exact spelling.cutInto stepEnd later
  | index spelling => exact spelling.cutInto later

theorem TailSpelling.cutInto (tails : List TailSpelling) :
    CutInto (tails.flatMap TailSpelling.chars) (tails.flatMap TailSpelling.tokens) := by
  induction tails with
  | nil => exact CutInto.nil
  | cons tail others ih =>
      rw [List.flatMap_cons, List.flatMap_cons]
      cases tail with
      | index spelling => exact spelling.cutInto ih
      | dotted member =>
          exact CutInto.cons (fun _ => rfl) (member.cutInto (stepEnd_tails others) ih)

theorem Spelling.cutInto (spelling : Spelling) : CutInto spelling.chars spelling.tokens := by
  cases spelling with
  | empty => exact CutInto.nil
  | dollar => exact CutInto.cons (fun _ => rfl) CutInto.nil
  | bare first tails => exact first.cutInto (stepEnd_tails tails) (TailSpelling.cutInto tails)
  | dollarDot first tails =>
      exact CutInto.cons (fun _ => rfl) (CutInto.cons (fun _ => rfl)
        (first.cutInto (stepEnd_tails tails) (TailSpelling.cutInto tails)))
  | dollarIndex first tails =>
      exact CutInto.cons (fun _ => rfl) (first.cutInto (TailSpelling.cutInto tails))

/-! ## From tokens to steps -/

theorem IndexSpelling.indexOf? (spelling : IndexSpelling) :
    Path.indexOf? (String.ofList spelling.digits) = some spelling.position := by
  simp only [Path.indexOf?, String.toList_ofList, if_pos spelling.inRange, position]

/-- An index is read from its tokens, at whatever positions these stand, and
reading goes on behind it. -/
theorem IndexSpelling.bracketed_of_tokens (spelling : IndexSpelling) (size : Nat)
    {tokens : List Token} {found : List Lexeme}
    (same : found.map Lexeme.token = spelling.tokens ++ tokens) :
    Exists fun opening => Exists fun inside => Exists fun others =>
      found = ⟨.openBracket, opening⟩ :: inside ∧ others.map Lexeme.token = tokens ∧
      bracketed size inside =
        (furtherSteps size others).map (.index spelling.position :: ·) := by
  rcases List.map_eq_cons_iff.mp same with ⟨⟨_, opening⟩, inside, rfl, rfl, afterOpen⟩
  rcases List.map_eq_cons_iff.mp afterOpen with ⟨⟨_, digitsAt⟩, closing, rfl, rfl, afterDigits⟩
  rcases List.map_eq_cons_iff.mp afterDigits with ⟨⟨_, closeAt⟩, others, rfl, rfl, behind⟩
  refine ⟨opening, _, others, rfl, behind, ?_⟩
  rw [bracketed, spelling.indexOf?]
  simp only
  rw [closed]

theorem MemberSpelling.member_of_tokens (spelling : MemberSpelling) (size : Nat)
    {tokens : List Token} {found : List Lexeme}
    (same : found.map Lexeme.token = spelling.tokens ++ tokens) :
    Exists fun others => others.map Lexeme.token = tokens ∧
      member size found = (furtherSteps size others).map (spelling.step :: ·) := by
  cases spelling with
  | name spelling =>
      rcases List.map_eq_cons_iff.mp same with ⟨⟨_, nameAt⟩, others, rfl, rfl, behind⟩
      refine ⟨others, behind, ?_⟩
      rw [member]
      rfl
  | index spelling =>
      rcases spelling.bracketed_of_tokens size same with
        ⟨opening, inside, others, rfl, behind, read⟩
      refine ⟨others, behind, ?_⟩
      rw [member, read]
      rfl

theorem TailSpelling.furtherSteps_of_tokens (size : Nat) (tails : List TailSpelling) :
    forall found : List Lexeme,
      found.map Lexeme.token = tails.flatMap TailSpelling.tokens ->
      furtherSteps size found = .ok (tails.map TailSpelling.step) := by
  induction tails with
  | nil =>
      intro found same
      rw [List.map_eq_nil_iff.mp same]
      rw [furtherSteps]
      rfl
  | cons tail rest ih =>
      intro found same
      rw [List.flatMap_cons] at same
      cases tail with
      | index spelling =>
          rcases spelling.bracketed_of_tokens size same with
            ⟨opening, inside, others, rfl, behind, read⟩
          rw [furtherSteps, read, ih others behind]
          rfl
      | dotted spelled =>
          rcases List.map_eq_cons_iff.mp same with ⟨⟨_, dotAt⟩, afterDot, rfl, rfl, named⟩
          rcases spelled.member_of_tokens size named with ⟨others, behind, read⟩
          rw [furtherSteps, read, ih others behind]
          rfl

/-- At the beginning of a text a member is read as behind a point. -/
theorem MemberSpelling.allSteps_of_tokens (spelling : MemberSpelling) (size : Nat)
    {tokens : List Token} {found : List Lexeme}
    (same : found.map Lexeme.token = spelling.tokens ++ tokens) :
    allSteps size found = member size found := by
  cases spelling with
  | name spelling =>
      rcases List.map_eq_cons_iff.mp same with ⟨⟨_, nameAt⟩, others, rfl, rfl, _⟩
      rfl
  | index spelling =>
      rcases List.map_eq_cons_iff.mp same with ⟨⟨_, opening⟩, others, rfl, rfl, _⟩
      rw [allSteps, member]

theorem Spelling.allSteps_of_tokens (spelling : Spelling) (size : Nat) {found : List Lexeme}
    (same : found.map Lexeme.token = spelling.tokens) :
    allSteps size found = .ok spelling.steps := by
  cases spelling with
  | empty =>
      rw [List.map_eq_nil_iff.mp same]
      rfl
  | dollar =>
      rcases List.map_eq_cons_iff.mp same with ⟨⟨_, dollarAt⟩, others, rfl, rfl, none⟩
      rw [List.map_eq_nil_iff.mp none]
      rfl
  | bare first tails =>
      rcases first.member_of_tokens size same with ⟨others, behind, read⟩
      rw [first.allSteps_of_tokens size same, read,
        TailSpelling.furtherSteps_of_tokens size tails others behind]
      rfl
  | dollarDot first tails =>
      rcases List.map_eq_cons_iff.mp same with ⟨⟨_, dollarAt⟩, behindDollar, rfl, rfl, dotted⟩
      rcases List.map_eq_cons_iff.mp dotted with ⟨⟨_, dotAt⟩, behindDot, rfl, rfl, named⟩
      rcases first.member_of_tokens size named with ⟨others, behind, read⟩
      rw [allSteps, read, TailSpelling.furtherSteps_of_tokens size tails others behind]
      rfl
  | dollarIndex first tails =>
      rcases List.map_eq_cons_iff.mp same with ⟨⟨_, dollarAt⟩, behindDollar, rfl, rfl, indexed⟩
      rcases first.bracketed_of_tokens size indexed with
        ⟨opening, inside, others, rfl, behind, read⟩
      rw [allSteps, read, TailSpelling.furtherSteps_of_tokens size tails others behind]
      rfl

theorem Spelling.ofChars_chars (spelling : Spelling) :
    ofChars spelling.chars = .ok spelling.path := by
  rcases spelling.cutInto spelling.chars.length with ⟨found, cut, same⟩
  rw [ofChars, lexemes, cut]
  simp only
  rw [spelling.allSteps_of_tokens _ same]
  rfl

theorem Spelling.read_text (spelling : Spelling) : read spelling.text = .ok spelling.path := by
  rw [read, text, String.toList_ofList]
  exact spelling.ofChars_chars

/-! ## Canonical texts -/

theorem isPlainName_cons_iff {first : Char} {others : List Char} :
    isPlainName (first :: others) = true ↔
      beginsName first = true ∧ forall c, c ∈ others -> continuesName c = true := by
  rw [isPlainName, Bool.and_eq_true_iff, List.all_eq_true]

/-- The canonical spelling of a name. -/
def canonicalName (name : String) : NameSpelling :=
  match name.toList with
  | [] => .quoted []
  | first :: others =>
      if plain : isPlainName (first :: others) = true then
        .plain first others (isPlainName_cons_iff.mp plain).1 (isPlainName_cons_iff.mp plain).2
      else
        .quoted (first :: others)

theorem chars_canonicalName (name : String) :
    (canonicalName name).chars = writeName name.toList := by
  rw [canonicalName]
  cases name.toList with
  | nil => rfl
  | cons first others =>
      by_cases plain : isPlainName (first :: others) = true
      · simp only [dif_pos plain, writeName, if_pos plain]
        rfl
      · simp only [dif_neg plain, writeName, if_neg plain]
        rfl

theorem name_canonicalName (name : String) : (canonicalName name).name = name := by
  have own : name = String.ofList name.toList := String.ofList_toList.symm
  rw [canonicalName]
  cases chars : name.toList with
  | nil =>
      rw [chars] at own
      exact own.symm
  | cons first others =>
      rw [chars] at own
      simp only
      split <;> exact own.symm

/-- The canonical spelling of an index. -/
def canonicalIndex (position : UInt32) : IndexSpelling where
  digits := Nat.toDigits 10 position.toNat
  nonempty := Nat.toDigits_ne_nil
  ascii c listed := Nat.isDigit_of_mem_toDigits (by decide) (by decide) listed
  inRange := by
    rw [Nat.ofDigitChars_ten_toDigits]
    exact position.toNat_lt

theorem position_canonicalIndex (position : UInt32) :
    (canonicalIndex position).position = position := by
  rw [IndexSpelling.position, canonicalIndex, Nat.ofDigitChars_ten_toDigits, UInt32.ofNat_toNat]

/-- The canonical spelling of a step behind another one. -/
def canonicalTail : Step -> TailSpelling
  | .field name => .dotted (.name (canonicalName name))
  | .index position => .index (canonicalIndex position)

theorem chars_canonicalTail (step : Step) : (canonicalTail step).chars = writeStep step := by
  cases step with
  | field name =>
      rw [writeStep, ← chars_canonicalName]
      rfl
  | index position => rfl

theorem step_canonicalTail (step : Step) : (canonicalTail step).step = step := by
  cases step with
  | field name => exact congrArg Step.field (name_canonicalName name)
  | index position => exact congrArg Step.index (position_canonicalIndex position)

/-- The canonical spelling of a path. -/
def canonical (path : Path) : Spelling :=
  match path.steps with
  | [] => .dollar
  | .field name :: rest => .dollarDot (.name (canonicalName name)) (rest.map canonicalTail)
  | .index position :: rest => .dollarIndex (canonicalIndex position) (rest.map canonicalTail)

theorem chars_canonical (path : Path) : path.canonical.chars = path.chars := by
  rcases path with ⟨steps⟩
  have behind : forall rest : List Step,
      (rest.map canonicalTail).flatMap TailSpelling.chars = rest.flatMap writeStep := by
    intro rest
    rw [List.flatMap_map]
    exact List.flatMap_congr fun step _ => chars_canonicalTail step
  cases steps with
  | nil => rfl
  | cons step rest =>
      have first := chars_canonicalTail step
      rw [chars, List.flatMap_cons, ← behind, ← first]
      cases step <;> rfl

theorem path_canonical (path : Path) : path.canonical.path = path := by
  rcases path with ⟨steps⟩
  have behind : forall rest : List Step,
      (rest.map canonicalTail).map TailSpelling.step = rest := by
    intro rest
    rw [List.map_map]
    exact (List.map_congr_left fun step _ => step_canonicalTail step).trans (List.map_id rest)
  cases steps with
  | nil => rfl
  | cons step rest =>
      have first := step_canonicalTail step
      apply congrArg Path.mk
      cases step with
      | field name => exact congrArg₂ List.cons first (behind rest)
      | index position => exact congrArg₂ List.cons first (behind rest)

theorem read_write (path : Path) : read path.write = .ok path := by
  have read := path.canonical.read_text
  rw [Spelling.text, chars_canonical, path_canonical] at read
  exact read

/-- Different paths have different texts, because each is read from its own. -/
theorem eq_of_write_eq {left right : Path} (same : left.write = right.write) : left = right := by
  have leftRead := read_write left
  rw [same, read_write right] at leftRead
  exact (Except.ok.inj leftRead).symm

end Path
end Emend
