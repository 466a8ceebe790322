import Emend.Path.Lexeme

namespace Emend
namespace Path

/-!
# Laws of lexemes

Where a token ends depends on the character behind it.  A run of name
characters or of digits goes on as long as it can, and a backquote ends a
quoted name only if no other backquote follows.  So each law on a single token
asks what the rest of the text may begin with.
-/

/-! ## Characters -/

theorem ne_of_beginsName {c other : Char} (begins : beginsName c = true)
    (never : beginsName other = false) : c ≠ other := by
  intro same
  subst other
  rw [begins] at never
  cases never

theorem ne_of_isDigit {c other : Char} (digit : c.isDigit = true)
    (never : other.isDigit = false) : c ≠ other := by
  intro same
  subst other
  rw [digit] at never
  cases never

/-- Characters below the first letter are not alphabetic. -/
theorem isAlphabetic_of_lt {c : Char} (below : c.toNat < 0x41) : Text.isAlphabetic c = false := by
  change (if c.toNat < 0x41 then false else _) = false
  exact if_pos below

theorem beginsName_of_isDigit {c : Char} (digit : c.isDigit = true) : beginsName c = false := by
  have bound : c.toNat ≤ 57 := by
    have upper := (Bool.and_eq_true_iff.mp digit).2
    exact UInt32.le_iff_toNat_le.mp (of_decide_eq_true upper)
  have letter : Text.isAlphabetic c = false := isAlphabetic_of_lt (by omega)
  have underscore : c ≠ '_' := ne_of_isDigit digit (by decide)
  rw [beginsName, letter, Bool.false_or]
  exact beq_eq_false_iff_ne.mpr underscore

theorem not_isDigit_of_beginsName {c : Char} (begins : beginsName c = true) :
    c.isDigit = false := by
  cases digit : c.isDigit with
  | false => rfl
  | true =>
      rw [beginsName_of_isDigit digit] at begins
      cases begins

/-! ## Single tokens -/

/-- The rest of a text does not begin with a character of a class. -/
def StopsAt (p : Char -> Bool) (rest : List Char) : Prop :=
  forall c tail, rest = c :: tail -> p c = false

theorem stopsAt_cons {p : Char -> Bool} {c : Char} (rest : List Char) (stops : p c = false) :
    StopsAt p (c :: rest) := by
  intro first tail same
  cases same
  exact stops

theorem StopsAt.append {p : Char -> Bool} {left right : List Char} (stops : StopsAt p left)
    (stopsToo : StopsAt p right) : StopsAt p (left ++ right) := by
  cases left with
  | nil => exact stopsToo
  | cons c rest => exact stopsAt_cons _ (stops c rest rfl)

/-- A text that begins otherwise goes on so with anything behind it. -/
theorem StopsAt.append_right {p : Char -> Bool} {left : List Char} (stops : StopsAt p left)
    (nonempty : left ≠ []) (right : List Char) : StopsAt p (left ++ right) := by
  cases left with
  | nil => exact False.elim (nonempty rfl)
  | cons c rest => exact stopsAt_cons _ (stops c rest rfl)

theorem takeWhile_of_stopsAt {p : Char -> Bool} {rest : List Char} (stops : StopsAt p rest) :
    rest.takeWhile p = [] := by
  cases rest with
  | nil => rfl
  | cons c tail =>
      exact List.takeWhile_cons_of_neg (Bool.not_eq_true _ ▸ stops c tail rfl)

theorem dropWhile_of_stopsAt {p : Char -> Bool} {rest : List Char} (stops : StopsAt p rest) :
    rest.dropWhile p = rest := by
  cases rest with
  | nil => rfl
  | cons c tail =>
      exact List.dropWhile_cons_of_neg (Bool.not_eq_true _ ▸ stops c tail rfl)

theorem takeWhile_run {p : Char -> Bool} {run rest : List Char}
    (belongs : forall c, c ∈ run -> p c = true) (stops : StopsAt p rest) :
    (run ++ rest).takeWhile p = run := by
  rw [List.takeWhile_append_of_pos belongs, takeWhile_of_stopsAt stops, List.append_nil]

theorem dropWhile_run {p : Char -> Bool} {run rest : List Char}
    (belongs : forall c, c ∈ run -> p c = true) (stops : StopsAt p rest) :
    (run ++ rest).dropWhile p = rest := by
  rw [List.dropWhile_append_of_pos belongs, dropWhile_of_stopsAt stops]

theorem firstToken_digits {c : Char} {run rest : List Char} (digit : c.isDigit = true)
    (digits : forall d, d ∈ run -> d.isDigit = true) (stops : StopsAt Char.isDigit rest)
    (position : Nat) :
    firstToken position c (run ++ rest) = .ok (.number (String.ofList (c :: run)), rest) := by
  have dollar : c ≠ '$' := ne_of_isDigit digit (by decide)
  have dot : c ≠ '.' := ne_of_isDigit digit (by decide)
  have openBracket : c ≠ '[' := ne_of_isDigit digit (by decide)
  have closeBracket : c ≠ ']' := ne_of_isDigit digit (by decide)
  have quote : c ≠ backquote := ne_of_isDigit digit (by decide)
  rw [firstToken, if_neg dollar, if_neg dot, if_neg openBracket, if_neg closeBracket,
    if_neg quote, if_pos digit, takeWhile_run digits stops, dropWhile_run digits stops]

theorem firstToken_plain {c : Char} {run rest : List Char} (begins : beginsName c = true)
    (goesOn : forall d, d ∈ run -> continuesName d = true) (stops : StopsAt continuesName rest)
    (position : Nat) :
    firstToken position c (run ++ rest) = .ok (.name (String.ofList (c :: run)), rest) := by
  have dollar : c ≠ '$' := ne_of_beginsName begins (by decide)
  have dot : c ≠ '.' := ne_of_beginsName begins (by decide)
  have openBracket : c ≠ '[' := ne_of_beginsName begins (by decide)
  have closeBracket : c ≠ ']' := ne_of_beginsName begins (by decide)
  have quote : c ≠ backquote := ne_of_beginsName begins (by decide)
  have digit : ¬ c.isDigit = true := by
    rw [not_isDigit_of_beginsName begins]
    exact Bool.false_ne_true
  rw [firstToken, if_neg dollar, if_neg dot, if_neg openBracket, if_neg closeBracket,
    if_neg quote, if_neg digit, if_pos begins, takeWhile_run goesOn stops,
    dropWhile_run goesOn stops]

/-- A doubled backquote goes on with the name; the single one at its end must
not be followed by another. -/
theorem quotedName?_doubleBackquotes {rest : List Char}
    (stops : StopsAt (fun c => c == backquote) rest) (name : List Char) :
    quotedName? (doubleBackquotes name ++ backquote :: rest) = some (name, rest) := by
  induction name with
  | nil =>
      cases rest with
      | nil => rfl
      | cons c tail =>
          have different : c ≠ backquote := beq_eq_false_iff_ne.mp (stops c tail rfl)
          change quotedName? (backquote :: c :: tail) = _
          rw [quotedName?, if_pos rfl, if_neg different]
  | cons c name ih =>
      by_cases quote : c = backquote
      · subst c
        change quotedName? (backquote :: backquote ::
          (doubleBackquotes name ++ backquote :: rest)) = _
        rw [quotedName?, if_pos rfl, if_pos rfl, ih]
        rfl
      · have single : doubleBackquotes (c :: name) = c :: doubleBackquotes name := by
          simp only [doubleBackquotes, List.flatMap_cons, if_neg quote, List.singleton_append]
        rw [single, List.cons_append]
        -- The reader looks one character ahead, and there always is one.
        cases tail : doubleBackquotes name ++ backquote :: rest with
        | nil => exact False.elim (List.append_ne_nil_of_right_ne_nil _ (List.cons_ne_nil _ _) tail)
        | cons next others =>
            rw [quotedName?, if_neg quote, ← tail, ih]
            rfl

theorem firstToken_quoted {rest : List Char}
    (stops : StopsAt (fun c => c == backquote) rest) (name : List Char) (position : Nat) :
    firstToken position backquote (doubleBackquotes name ++ backquote :: rest) =
      .ok (.name (String.ofList name), rest) := by
  have dollar : backquote ≠ '$' := by decide
  have dot : backquote ≠ '.' := by decide
  have openBracket : backquote ≠ '[' := by decide
  have closeBracket : backquote ≠ ']' := by decide
  rw [firstToken, if_neg dollar, if_neg dot, if_neg openBracket, if_neg closeBracket, if_pos rfl,
    quotedName?_doubleBackquotes stops]

/-! ## Whole texts -/

/-- A text is cut into tokens, wherever it stands in a longer text. -/
def CutInto (text : List Char) (tokens : List Token) : Prop :=
  forall size, Exists fun found =>
    lexemesFrom size text = .ok found ∧ found.map Lexeme.token = tokens

theorem CutInto.nil : CutInto [] [] := by
  intro size
  exact ⟨[], lexemesFrom.eq_1 size, rfl⟩

/-- Cutting goes on behind the first token. -/
theorem CutInto.cons {c : Char} {text rest : List Char} {token : Token} {tokens : List Token}
    (first : forall position, firstToken position c text = .ok (token, rest))
    (later : CutInto rest tokens) : CutInto (c :: text) (token :: tokens) := by
  intro size
  rcases later size with ⟨found, cut, same⟩
  refine ⟨⟨token, size - (text.length + 1)⟩ :: found, ?_, ?_⟩
  · rw [lexemesFrom]
    split
    · next fault refused =>
        rw [first] at refused
        cases refused
    · next other others read =>
        rw [first] at read
        cases read
        rw [cut]
  · rw [List.map_cons, same]

end Path
end Emend
