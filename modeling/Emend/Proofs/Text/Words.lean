import Mathlib
import Emend.Proofs.Path.Lexeme

namespace Emend
namespace Text

/-!
# Words

A text is cut at white space into words.  The laws here say where the first word of a text
begins and ends, and what is left of a text without the white space around it.  That no
character of a name is white space can be read off the tables of the classes, whose ranges
lie apart.
-/

/-! ## White space and other classes -/

/-- No range of the one table overlaps a range of the other. -/
def Apart (left right : List (Nat × Nat)) : Prop :=
  forall first, first ∈ left -> forall second, second ∈ right ->
    first.2 < second.1 ∨ second.2 < first.1

instance (left right : List (Nat × Nat)) : Decidable (Apart left right) :=
  inferInstanceAs (Decidable (forall first, first ∈ left -> forall second, second ∈ right ->
    first.2 < second.1 ∨ second.2 < first.1))

theorem exists_range_of_inRanges {ranges : List (Nat × Nat)} {point : Nat}
    (held : inRanges ranges point = true) :
    Exists fun range => range ∈ ranges ∧ range.1 ≤ point ∧ point ≤ range.2 := by
  induction ranges with
  | nil => cases held
  | cons range rest ih =>
      rw [inRanges] at held
      split at held
      · cases held
      · next notBelow =>
          split at held
          · next notAbove => exact ⟨range, List.mem_cons_self, Nat.not_lt.mp notBelow, notAbove⟩
          · rcases ih held with ⟨later, listed, bounds⟩
            exact ⟨later, List.mem_cons_of_mem _ listed, bounds⟩

theorem Apart.not_inRanges {left right : List (Nat × Nat)} (apart : Apart left right) {point : Nat}
    (held : inRanges left point = true) : inRanges right point = false := by
  rcases exists_range_of_inRanges held with ⟨first, inLeft, above, below⟩
  apply Bool.eq_false_iff.mpr
  intro heldToo
  rcases exists_range_of_inRanges heldToo with ⟨second, inRight, aboveToo, belowToo⟩
  have separate := apart first inLeft second inRight
  omega

theorem apart_whiteSpace_alphabetic : Apart whiteSpaceRanges alphabeticRanges := by
  decide +kernel

theorem apart_whiteSpace_numeric : Apart whiteSpaceRanges numericRanges := by
  decide +kernel

theorem not_isSpace_of_isAlphanumeric {c : Char} (belongs : isAlphanumeric c = true) :
    isSpace c = false := by
  apply Bool.eq_false_iff.mpr
  intro space
  have letter : isAlphabetic c = false := apart_whiteSpace_alphabetic.not_inRanges space
  have number : inRanges numericRanges c.toNat = false := apart_whiteSpace_numeric.not_inRanges space
  rw [isAlphanumeric, letter, number] at belongs
  cases belongs

/-- The letters and digits of ASCII are not white space. -/
theorem not_isSpace_of_isAlphanum {c : Char} (belongs : c.isAlphanum = true) :
    isSpace c = false := by
  have apart : Apart [(48, 57), (65, 90), (97, 122)] whiteSpaceRanges := by decide
  apply apart.not_inRanges
  simp only [Char.isAlphanum, Char.isAlpha, Char.isUpper, Char.isLower, Char.isDigit,
    Bool.or_eq_true, Bool.and_eq_true, decide_eq_true_eq, ge_iff_le, UInt32.le_iff_toNat_le] at belongs
  have bounds : (65 ≤ c.toNat ∧ c.toNat ≤ 90 ∨ 97 ≤ c.toNat ∧ c.toNat ≤ 122) ∨
      48 ≤ c.toNat ∧ c.toNat ≤ 57 := belongs
  simp only [inRanges]
  grind

/-! ## Blanks and words -/

/-- All characters are white space. -/
def Blank (text : List Char) : Prop :=
  forall c, c ∈ text -> isSpace c = true

instance blankDecidable (text : List Char) : Decidable (Blank text) :=
  decidable_of_iff (text.all isSpace = true) List.all_eq_true

theorem blank_nil : Blank [] := fun _ listed => False.elim (List.not_mem_nil listed)

theorem Blank.append {left right : List Char} (blank : Blank left) (blankToo : Blank right) :
    Blank (left ++ right) :=
  fun _ listed => (List.mem_append.mp listed).elim (blank _) (blankToo _)

theorem Blank.reverse {text : List Char} (blank : Blank text) : Blank text.reverse :=
  fun _ listed => blank _ (List.mem_reverse.mp listed)

theorem blank_takeWhile (text : List Char) : Blank (text.takeWhile isSpace) :=
  fun _ listed => List.mem_takeWhile_imp listed

theorem stopsAt_dropWhile (p : Char -> Bool) (text : List Char) :
    Path.StopsAt p (text.dropWhile p) := by
  intro c rest same
  have first := List.head?_dropWhile_not p text
  rw [same] at first
  exact first

theorem trimStart_blank_append {front text : List Char} (blank : Blank front)
    (begins : Path.StopsAt isSpace text) : trimStart (front ++ text) = text :=
  Path.dropWhile_run blank begins

theorem trimStart_of_blank {text : List Char} (blank : Blank text) : trimStart text = [] := by
  have stops : Path.StopsAt isSpace [] := fun _ _ same => by cases same
  have emptied := trimStart_blank_append blank stops
  rwa [List.append_nil] at emptied

theorem firstWord_of_blank {text : List Char} (blank : Blank text) : firstWord text = ([], []) := by
  rw [firstWord, trimStart_of_blank blank]
  rfl

theorem firstWord_of_word {gap word rest : List Char} (blank : Blank gap) (nonempty : word ≠ [])
    (whole : forall c, c ∈ word -> isSpace c = false)
    (ends : Path.StopsAt (fun c => !isSpace c) rest) :
    firstWord (gap ++ (word ++ rest)) = (word, rest) := by
  have begins : Path.StopsAt isSpace word := by
    intro c others same
    exact whole c (same ▸ List.mem_cons_self)
  have goesOn : forall c, c ∈ word -> (!isSpace c) = true := by
    intro c listed
    rw [whole c listed]
    rfl
  rw [firstWord, trimStart_blank_append blank (begins.append_right nonempty rest),
    List.span_eq_takeWhile_dropWhile, Path.takeWhile_run goesOn ends, Path.dropWhile_run goesOn ends]

/-- Every text is white space, its first word, and a rest that does not go on with the word.  If
there is no word there is no rest either. -/
theorem exists_firstWord (text : List Char) :
    Exists fun gap => Blank gap ∧ text = gap ++ ((firstWord text).1 ++ (firstWord text).2) ∧
      (forall c, c ∈ (firstWord text).1 -> isSpace c = false) ∧
      Path.StopsAt (fun c => !isSpace c) (firstWord text).2 ∧
      ((firstWord text).1 = [] -> (firstWord text).2 = []) := by
  have begins := stopsAt_dropWhile isSpace text
  rw [firstWord, List.span_eq_takeWhile_dropWhile, List.takeWhile_append_dropWhile, trimStart]
  refine ⟨text.takeWhile isSpace, blank_takeWhile text, List.takeWhile_append_dropWhile.symm, ?_,
    stopsAt_dropWhile _ _, ?_⟩
  · intro c listed
    have goesOn := List.mem_takeWhile_imp (p := fun c => !isSpace c) listed
    rwa [Bool.not_eq_true'] at goesOn
  · intro none
    cases behind : text.dropWhile isSpace with
    | nil => rfl
    | cons c rest =>
        have first := begins c rest behind
        rw [behind, List.takeWhile_cons, first] at none
        cases none

/-! ## White space around a text -/

theorem trim_eq {front text ending : List Char} (blank : Blank front) (blankToo : Blank ending)
    (nonempty : text ≠ []) (begins : Path.StopsAt isSpace text)
    (ends : Path.StopsAt isSpace text.reverse) : trim (front ++ (text ++ ending)) = text := by
  rw [trim, trimStart_blank_append blank (begins.append_right nonempty ending),
    List.reverse_append, trimStart_blank_append blankToo.reverse ends, List.reverse_reverse]

theorem exists_around_trim (text : List Char) :
    Exists fun front => Exists fun ending => Blank front ∧ Blank ending ∧
      text = front ++ (trim text ++ ending) := by
  refine ⟨text.takeWhile isSpace, ((trimStart text).reverse.takeWhile isSpace).reverse,
    blank_takeWhile text, (blank_takeWhile _).reverse, ?_⟩
  rw [trim, trimStart, trimStart, ← List.reverse_append, List.takeWhile_append_dropWhile,
    List.reverse_reverse, List.takeWhile_append_dropWhile]

/-! ## Letters of either case -/

/-- The word consists of the given letters, each of them small or capital. -/
def Spells (word letters : List Char) : Prop :=
  List.Forall₂ (fun c letter => c = letter ∨ c = letter.toUpper) word letters

/-- Such a word has letters only. -/
theorem Spells.isAlpha {letters : List Char}
    (small : forall letter, letter ∈ letters -> letter.isLower = true) {word : List Char}
    (spelled : Spells word letters) : forall c, c ∈ word -> c.isAlpha = true := by
  induction letters generalizing word with
  | nil =>
      rw [Spells, List.forall₂_nil_right_iff] at spelled
      rw [spelled]
      exact fun _ listed => False.elim (List.not_mem_nil listed)
  | cons letter rest ih =>
      rcases List.forall₂_cons_right_iff.mp spelled with ⟨c, others, here, later, rfl⟩
      have parts := List.forall_mem_cons.mp small
      refine List.forall_mem_cons.mpr ⟨?_, ih parts.2 later⟩
      have letterIsAlpha : letter.isAlpha = true := by rw [Char.isAlpha, parts.1, Bool.or_true]
      rcases here with rfl | rfl
      · exact letterIsAlpha
      · rw [Char.isAlpha_toUpper_eq_isAlpha, letterIsAlpha]

theorem toLower_eq_iff {letter : Char} (small : letter.isLower = true) (c : Char) :
    c.toLower = letter.toLower ↔ c = letter ∨ c = letter.toUpper := by
  constructor
  · intro same
    by_cases capital : c.isUpper = true
    · right
      rw [← Char.toUpper_toLower_eq_toUpper letter, ← same, Char.toUpper_toLower_eq_toUpper,
        Char.toUpper_eq_of_not_isLower (Char.not_isLower_of_isUpper capital)]
    · left
      rwa [Char.toLower_eq_of_not_isUpper capital,
        Char.toLower_eq_of_not_isUpper (Char.not_isUpper_of_isLower small)] at same
  · rintro (rfl | rfl)
    · rfl
    · exact Char.toLower_toUpper_eq_toLower letter

theorem sameIgnoringCase_iff {letters : List Char}
    (small : forall letter, letter ∈ letters -> letter.isLower = true) (word : List Char) :
    sameIgnoringCase word letters = true ↔ Spells word letters := by
  rw [sameIgnoringCase, beq_iff_eq, Spells]
  induction letters generalizing word with
  | nil => rw [List.map_nil, List.map_eq_nil_iff, List.forall₂_nil_right_iff]
  | cons letter rest ih =>
      have parts := List.forall_mem_cons.mp small
      cases word with
      | nil => exact ⟨fun same => (by cases same), fun spelled => (by cases spelled)⟩
      | cons c others =>
          rw [List.map_cons, List.map_cons, List.cons.injEq, List.forall₂_cons,
            toLower_eq_iff parts.1, ih parts.2]

end Text
end Emend
