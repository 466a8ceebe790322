import Mathlib
import Emend.Proofs.Path.CanonicalText
import Emend.Proofs.Path.Grammar
import Emend.Proofs.Text.Words
import Emend.SortKey
import Emend.Statement

namespace Emend
namespace SortKey

/-!
# Sort expressions

A sort expression is a path with white space around it, and behind the path, with white space
in between, there may be a direction.  To find the end of the path its characters are gone
through, and a flag is turned over at every backquote, while the reader of paths knows quoted
names and the backquotes doubled in them.  The two agree on every path: from outside of quotes
each token leads to outside of quotes again, and white space can stand in quoted names only.
-/

/-! ## What an expression consists of -/

/-- The word for a direction, in small letters. -/
def directionWord (ascending : Bool) : List Char :=
  if ascending then ['a', 's', 'c'] else ['d', 'e', 's', 'c']

/-- What stands behind the path gives the direction. -/
inductive Directs : List Char -> Bool -> Prop where
  | unsaid {rest : List Char} (blank : Text.Blank rest) : Directs rest true
  | said {gap word ending : List Char} {ascending : Bool} (present : gap ≠ [])
      (blank : Text.Blank gap) (spelled : Text.Spells word (directionWord ascending))
      (blankToo : Text.Blank ending) : Directs (gap ++ (word ++ ending)) ascending

/-- An expression cut into white space, a path, and what gives the direction. -/
structure CutInto (expression : String) (front path rest : List Char) (key : SortKey) : Prop where
  together : expression.toList = front ++ (path ++ rest)
  blank : Text.Blank front
  read : Path.parse (String.ofList path) = .ok key.path
  directed : Directs rest key.ascending

/-! ## The end of the path -/

theorem splitPath_together (text : List Char) :
    forall quoted, (splitPath quoted text).1 ++ (splitPath quoted text).2 = text := by
  induction text with
  | nil => exact fun _ => rfl
  | cons c rest ih =>
      intro quoted
      rw [splitPath]
      split
      · exact congrArg (c :: ·) (ih _)
      · split
        · rfl
        · exact congrArg (c :: ·) (ih _)

/-- The path ends with the text or in front of white space. -/
theorem stopsAt_splitPath (text : List Char) :
    forall quoted, Path.StopsAt (fun c => !Text.isSpace c) (splitPath quoted text).2 := by
  induction text with
  | nil => exact fun _ _ _ same => by cases same
  | cons c rest ih =>
      intro quoted
      rw [splitPath]
      split
      · exact ih _
      · split
        · next space =>
            apply Path.stopsAt_cons
            rw [(Bool.and_eq_true_iff.mp space).1]
            rfl
        · exact ih _

/-- A text that the splitter takes into the path as a whole, from outside of quotes to outside
of quotes, and that has no white space at either end. -/
structure Outside (text : List Char) : Prop where
  passed : forall rest, splitPath false (text ++ rest) =
    (text ++ (splitPath false rest).1, (splitPath false rest).2)
  begins : Path.StopsAt Text.isSpace text
  ends : Path.StopsAt Text.isSpace text.reverse

theorem outside_nil : Outside [] where
  passed _ := rfl
  begins _ _ same := by cases same
  ends _ _ same := by cases same

theorem Outside.append {left right : List Char} (outside : Outside left)
    (outsideToo : Outside right) : Outside (left ++ right) where
  passed rest := by
    rw [List.append_assoc, outside.passed, outsideToo.passed, List.append_assoc]
  begins := outside.begins.append outsideToo.begins
  ends := by
    rw [List.reverse_append]
    exact outsideToo.ends.append outside.ends

theorem outside_single {c : Char} (plain : c ≠ Path.backquote) (solid : Text.isSpace c = false) :
    Outside [c] where
  passed rest := by
    rw [List.singleton_append, splitPath, if_neg plain, solid]
    rfl
  begins := Path.stopsAt_cons [] solid
  ends := Path.stopsAt_cons [] solid

theorem outside_run {run : List Char} (plain : forall c, c ∈ run -> c ≠ Path.backquote)
    (solid : forall c, c ∈ run -> Text.isSpace c = false) : Outside run := by
  induction run with
  | nil => exact outside_nil
  | cons c rest ih =>
      have parts := List.forall_mem_cons.mp plain
      have partsToo := List.forall_mem_cons.mp solid
      exact (outside_single parts.1 partsToo.1).append (ih parts.2 partsToo.2)

/-- Inside of quotes the splitter goes on to the closing quote.  A backquote in the name turns
the flag over twice. -/
theorem splitPath_doubleBackquotes (name rest : List Char) :
    splitPath true (Path.doubleBackquotes name ++ Path.backquote :: rest) =
      (Path.doubleBackquotes name ++ Path.backquote :: (splitPath false rest).1,
        (splitPath false rest).2) := by
  induction name with
  | nil =>
      change splitPath true (Path.backquote :: rest) = _
      rw [splitPath, if_pos rfl]
      rfl
  | cons c name ih =>
      by_cases quote : c = Path.backquote
      · subst c
        change splitPath true (Path.backquote :: Path.backquote ::
          (Path.doubleBackquotes name ++ Path.backquote :: rest)) = _
        rw [splitPath, if_pos rfl, Bool.not_true, splitPath, if_pos rfl, Bool.not_false, ih]
        rfl
      · have single : Path.doubleBackquotes (c :: name) = c :: Path.doubleBackquotes name := by
          simp only [Path.doubleBackquotes, List.flatMap_cons, if_neg quote, List.singleton_append]
        rw [single, List.cons_append, splitPath, if_neg quote, Bool.not_true, Bool.and_false,
          if_neg Bool.false_ne_true, ih]
        rfl

theorem outside_quoted (name : List Char) :
    Outside (Path.backquote :: (Path.doubleBackquotes name ++ [Path.backquote])) where
  passed rest := by
    rw [List.cons_append, List.append_assoc, List.singleton_append, splitPath, if_pos rfl,
      Bool.not_false, splitPath_doubleBackquotes, List.cons_append, List.append_assoc,
      List.singleton_append]
  begins := Path.stopsAt_cons _ (by decide)
  ends := by
    rw [List.reverse_cons, List.reverse_append]
    exact Path.stopsAt_cons _ (by decide)

theorem not_isSpace_of_continuesName {c : Char} (goesOn : Path.continuesName c = true) :
    Text.isSpace c = false := by
  rw [Path.continuesName, Bool.or_eq_true_iff] at goesOn
  rcases goesOn with belongs | underscore
  · exact Text.not_isSpace_of_isAlphanumeric belongs
  · rw [beq_iff_eq.mp underscore]
    decide

theorem continuesName_of_beginsName {c : Char} (begins : Path.beginsName c = true) :
    Path.continuesName c = true := by
  rw [Path.beginsName, Bool.or_eq_true_iff] at begins
  rw [Path.continuesName, Text.isAlphanumeric]
  rcases begins with letter | underscore
  · rw [letter]
    rfl
  · rw [underscore, Bool.or_true]

theorem outside_name (spelling : Path.NameSpelling) : Outside spelling.chars := by
  cases spelling with
  | quoted name => exact outside_quoted name
  | plain first others begins goesOn =>
      have all : forall c, c ∈ first :: others -> Path.continuesName c = true :=
        List.forall_mem_cons.mpr ⟨continuesName_of_beginsName begins, goesOn⟩
      have backquote : Path.continuesName Path.backquote = false := by decide
      refine outside_run ?_ fun c listed => not_isSpace_of_continuesName (all c listed)
      rintro c listed rfl
      exact Bool.false_ne_true (backquote.symm.trans (all _ listed))

/-- One piece for each token. -/
theorem outside_token {token : Path.Token} {piece : List Char}
    (spelled : Path.SpelledToken token piece) : Outside piece := by
  cases spelled with
  | dollar | dot | openBracket | closeBracket => exact outside_single (by decide) (by decide)
  | name spelling => exact outside_name spelling
  | number digits nonempty ascii =>
      exact outside_run (fun c listed => Path.ne_of_isDigit (ascii c listed) (by decide))
        (fun c listed => Text.not_isSpace_of_isAlphanum (by
          rw [Char.isAlphanum, ascii c listed, Bool.or_true]))

theorem outside_tokens {text : List Char} {tokens : List Path.Token}
    (spelled : Path.SpelledTokens text tokens) : Outside text := by
  induction spelled with
  | nil => exact outside_nil
  | cons first later ih => exact (outside_token first).append ih

/-! ## The direction -/

theorem blank_of_no_word {text : List Char} (none : (Text.firstWord text).1 = []) :
    Text.Blank text := by
  rcases Text.exists_firstWord text with ⟨gap, blank, together, _, _, noRest⟩
  rw [none, noRest none, List.append_nil, List.append_nil] at together
  rwa [together]

theorem blank_stopsAt {text : List Char} (blank : Text.Blank text) :
    Path.StopsAt (fun c => !Text.isSpace c) text := by
  rintro c rest rfl
  exact congrArg not (blank c List.mem_cons_self)

theorem isLower_of_mem_directionWord (ascending : Bool) :
    forall letter, letter ∈ directionWord ascending -> letter.isLower = true := by
  cases ascending <;> simp [directionWord]

theorem sameIgnoringCase_directionWord (ascending : Bool) (word : List Char) :
    Text.sameIgnoringCase word (directionWord ascending) = true ↔
      Text.Spells word (directionWord ascending) :=
  Text.sameIgnoringCase_iff (isLower_of_mem_directionWord ascending) word

theorem not_isSpace_of_spells {ascending : Bool} {word : List Char}
    (spelled : Text.Spells word (directionWord ascending)) :
    forall c, c ∈ word -> Text.isSpace c = false := by
  intro c listed
  have letter := spelled.isAlpha (isLower_of_mem_directionWord ascending) c listed
  exact Text.not_isSpace_of_isAlphanum (by rw [Char.isAlphanum, letter, Bool.true_or])

theorem ne_nil_of_spells {ascending : Bool} {word : List Char}
    (spelled : Text.Spells word (directionWord ascending)) : word ≠ [] := by
  rintro rfl
  have length := spelled.length_eq
  cases ascending <;> cases length

/-- The words for the directions differ in length. -/
theorem eq_of_spells {word : List Char} {ascending other : Bool}
    (spelled : Text.Spells word (directionWord ascending))
    (spelledToo : Text.Spells word (directionWord other)) : ascending = other := by
  have sameLength := spelled.length_eq.symm.trans spelledToo.length_eq
  cases ascending <;> cases other <;> simp_all [directionWord]

/-- The verdict on the first word behind a path; the text without words is ascending. -/
def judged (expression : String) (word : List Char) : Except Fault Bool :=
  if word.isEmpty || Text.sameIgnoringCase word ['a', 's', 'c'] then .ok true
  else if Text.sameIgnoringCase word ['d', 'e', 's', 'c'] then .ok false
  else .error (.path (.sortDirection (String.ofList word) expression))

theorem direction_of_words (expression : String) {words first rest second others : List Char}
    (begins : Text.firstWord words = (first, rest)) (goesOn : Text.firstWord rest = (second, others)) :
    direction expression words =
      (judged expression first >>= fun ascending =>
        if second.isEmpty then .ok ascending
        else .error (.path (.sortExcess (String.ofList second) expression))) := by
  simp only [direction, judged, begins, goesOn]
  split
  · rfl
  · split <;> rfl

theorem judged_eq_ok_iff (expression : String) (word : List Char) (ascending : Bool) :
    judged expression word = .ok ascending ↔
      word = [] ∧ ascending = true ∨ Text.Spells word (directionWord ascending) := by
  have upward : Text.sameIgnoringCase word ['a', 's', 'c'] = true ↔
      Text.Spells word (directionWord true) := sameIgnoringCase_directionWord true word
  have downward : Text.sameIgnoringCase word ['d', 'e', 's', 'c'] = true ↔
      Text.Spells word (directionWord false) := sameIgnoringCase_directionWord false word
  rw [judged]
  constructor
  · intro found
    split at found
    · next up =>
        cases found
        rcases Bool.or_eq_true_iff.mp up with none | same
        · exact Or.inl ⟨List.isEmpty_iff.mp none, rfl⟩
        · exact Or.inr (upward.mp same)
    · split at found
      · next down =>
          cases found
          exact Or.inr (downward.mp down)
      · cases found
  · rintro (⟨rfl, rfl⟩ | spelled)
    · rfl
    · cases ascending with
      | true => exact if_pos (Bool.or_eq_true_iff.mpr (Or.inr (upward.mpr spelled)))
      | false =>
          have notUp : ¬ (word.isEmpty || Text.sameIgnoringCase word ['a', 's', 'c']) = true := by
            intro up
            rcases Bool.or_eq_true_iff.mp up with none | same
            · exact ne_nil_of_spells spelled (List.isEmpty_iff.mp none)
            · cases eq_of_spells spelled (upward.mp same)
          rw [if_neg notUp, if_pos (downward.mpr spelled)]

/-- In a text that begins with white space there is some in front of the first word. -/
theorem gap_ne_nil {text gap word rest : List Char}
    (starts : Path.StopsAt (fun c => !Text.isSpace c) text) (together : text = gap ++ (word ++ rest))
    (present : word ≠ []) (whole : forall c, c ∈ word -> Text.isSpace c = false) : gap ≠ [] := by
  rintro rfl
  cases word with
  | nil => exact present rfl
  | cons c others =>
      have space : Text.isSpace c = true := by simpa using starts c _ together
      exact Bool.false_ne_true ((whole c List.mem_cons_self).symm.trans space)

theorem direction_eq_ok_iff (expression : String) {rest : List Char} {ascending : Bool}
    (starts : Path.StopsAt (fun c => !Text.isSpace c) rest) :
    direction expression rest = .ok ascending ↔ Directs rest ascending := by
  constructor
  · intro directed
    rw [direction_of_words expression Prod.mk.eta.symm Prod.mk.eta.symm] at directed
    rcases Result.exists_of_bind_eq_ok directed with ⟨found, judgement, behind⟩
    split at behind
    · next ended =>
        cases behind
        have endingBlank := blank_of_no_word (List.isEmpty_iff.mp ended)
        rcases Text.exists_firstWord rest with ⟨gap, blank, together, whole, _, noRest⟩
        rcases (judged_eq_ok_iff _ _ _).mp judgement with ⟨none, rfl⟩ | spelled
        · exact .unsaid (blank_of_no_word none)
        · have present := gap_ne_nil starts together (ne_nil_of_spells spelled) whole
          rw [together]
          exact .said present blank spelled endingBlank
    · cases behind
  · intro directs
    cases directs with
    | unsaid blank =>
        rw [direction_of_words expression (Text.firstWord_of_blank blank)
          (Text.firstWord_of_blank Text.blank_nil)]
        rfl
    | @said gap word ending ascending present blank spelled blankToo =>
        rw [direction_of_words expression (Text.firstWord_of_word blank (ne_nil_of_spells spelled)
          (not_isSpace_of_spells spelled) (blank_stopsAt blankToo)) (Text.firstWord_of_blank blankToo),
          (judged_eq_ok_iff _ _ _).mpr (Or.inr spelled)]
        rfl

/-! ## Expressions that are read -/

theorem outside_of_parse {text : List Char} {path : Path}
    (read : Path.parse (String.ofList text) = .ok path) : Outside text ∧ text ≠ [] := by
  rcases Path.parseFor_eq_ok_iff.mp read with ⟨accepted, below⟩
  have found := Path.parseAllowingRoot_eq_ok_iff.mp accepted
  constructor
  · rw [Path.read, String.toList_ofList] at found
    rcases Path.exists_spelledTokens found with ⟨tokens, spelled⟩
    exact outside_tokens spelled
  · rintro rfl
    have root := found.symm.trans (Path.read_root (Or.inl rfl))
    cases root
    cases below

theorem Directs.starts {rest : List Char} {ascending : Bool} (directs : Directs rest ascending) :
    Path.StopsAt (fun c => !Text.isSpace c) rest := by
  cases directs with
  | unsaid blank => exact blank_stopsAt blank
  | said present blank spelled blankToo =>
      exact (blank_stopsAt blank).append_right present _

theorem splitPath_of_stopsAt {rest : List Char}
    (starts : Path.StopsAt (fun c => !Text.isSpace c) rest) : splitPath false rest = ([], rest) := by
  cases rest with
  | nil => rfl
  | cons c others =>
      have space : Text.isSpace c = true := by simpa using starts c others rfl
      have plain : c ≠ Path.backquote := by
        rintro rfl
        exact Bool.false_ne_true space
      rw [splitPath, if_neg plain, space]
      rfl

/-- The splitter finds the parts of an expression, so there is only one way to cut it. -/
theorem CutInto.split {expression : String} {front path rest : List Char} {key : SortKey}
    (cut : CutInto expression front path rest key) :
    splitPath false (Text.trimStart expression.toList) = (path, rest) := by
  rcases outside_of_parse cut.read with ⟨outside, nonempty⟩
  rw [cut.together, Text.trimStart_blank_append cut.blank
    (outside.begins.append_right nonempty rest), outside.passed,
    splitPath_of_stopsAt cut.directed.starts, List.append_nil]

theorem parse_of_split {expression : String} {path words : List Char}
    (split : splitPath false (Text.trimStart expression.toList) = (path, words))
    (nonempty : path ≠ []) :
    parse expression = Path.parse (String.ofList path) >>= fun found =>
      direction expression words >>= fun ascending => pure ⟨found, ascending⟩ := by
  have notEmpty : ¬ path.isEmpty = true := fun none => nonempty (List.isEmpty_iff.mp none)
  simp only [parse, split, if_neg notEmpty]

theorem parse_eq_ok_iff {expression : String} {key : SortKey} :
    parse expression = .ok key ↔ Exists fun front => Exists fun path => Exists fun rest =>
      CutInto expression front path rest key := by
  constructor
  · intro parsed
    rcases split : splitPath false (Text.trimStart expression.toList) with ⟨path, words⟩
    have together := splitPath_together (Text.trimStart expression.toList) false
    have starts := stopsAt_splitPath (Text.trimStart expression.toList) false
    rw [split] at together starts
    have nonempty : path ≠ [] := by
      rintro rfl
      simp only [parse, split] at parsed
      cases parsed
    rw [parse_of_split split nonempty] at parsed
    rcases Result.exists_of_bind_eq_ok parsed with ⟨found, read, behind⟩
    rcases Result.exists_of_bind_eq_ok behind with ⟨ascending, directed, same⟩
    cases same
    refine ⟨expression.toList.takeWhile Text.isSpace, path, words, ?_, Text.blank_takeWhile _, read,
      (direction_eq_ok_iff expression starts).mp directed⟩
    rw [together, Text.trimStart, List.takeWhile_append_dropWhile]
  · rintro ⟨front, path, rest, cut⟩
    rw [parse_of_split cut.split (outside_of_parse cut.read).2, cut.read]
    have directed := (direction_eq_ok_iff expression cut.directed.starts).mpr cut.directed
    change (direction expression rest >>= fun ascending =>
      Except.ok (SortKey.mk key.path ascending)) = .ok key
    rw [directed]
    rfl

theorem CutInto.unique {expression : String} {front path rest front' path' rest' : List Char}
    {key key' : SortKey} (cut : CutInto expression front path rest key)
    (cutToo : CutInto expression front' path' rest' key') :
    front = front' ∧ path = path' ∧ rest = rest' := by
  have same := cut.split.symm.trans cutToo.split
  cases same
  exact ⟨List.append_cancel_right (cut.together.symm.trans cutToo.together), rfl, rfl⟩

/-! ## White space around expressions -/

theorem Directs.append_blank {rest : List Char} {ascending : Bool} (directs : Directs rest ascending)
    {blanks : List Char} (blank : Text.Blank blanks) : Directs (rest ++ blanks) ascending := by
  cases directs with
  | unsaid restBlank => exact .unsaid (restBlank.append blank)
  | said present gapBlank spelled endingBlank =>
      rw [List.append_assoc, List.append_assoc]
      exact .said present gapBlank spelled (endingBlank.append blank)

/-- What gives the direction can be cut off behind its last word. -/
theorem Directs.exists_trimmed {rest : List Char} {ascending : Bool}
    (directs : Directs rest ascending) :
    Exists fun kept => Exists fun blanks => rest = kept ++ blanks ∧ Text.Blank blanks ∧
      Directs kept ascending ∧ Path.StopsAt Text.isSpace kept.reverse := by
  cases directs with
  | unsaid blank =>
      exact ⟨[], rest, rfl, blank, .unsaid Text.blank_nil, fun _ _ same => by cases same⟩
  | @said gap word ending _ present gapBlank spelled endingBlank =>
      refine ⟨gap ++ (word ++ []), ending, ?_, endingBlank,
        .said present gapBlank spelled Text.blank_nil, ?_⟩
      · rw [List.append_nil, List.append_assoc]
      · rw [List.append_nil, List.reverse_append]
        have solid : Path.StopsAt Text.isSpace word.reverse := by
          intro c others same
          exact not_isSpace_of_spells spelled c (List.mem_reverse.mp (same ▸ List.mem_cons_self))
        exact solid.append_right
          (fun none => ne_nil_of_spells spelled (List.reverse_eq_nil_iff.mp none)) _

theorem parse_trim (expression : String) (key : SortKey) :
    parse (String.ofList (Text.trim expression.toList)) = .ok key ↔ parse expression = .ok key := by
  rw [parse_eq_ok_iff, parse_eq_ok_iff]
  constructor
  · rintro ⟨front, path, rest, cut⟩
    rcases Text.exists_around_trim expression.toList with ⟨before, behind, blank, blankToo, around⟩
    have together := cut.together
    rw [String.toList_ofList] at together
    refine ⟨before ++ front, path, rest ++ behind, ?_, blank.append cut.blank, cut.read,
      cut.directed.append_blank blankToo⟩
    rw [around, together]
    simp only [List.append_assoc]
  · rintro ⟨front, path, rest, cut⟩
    rcases cut.directed.exists_trimmed with ⟨kept, blanks, rfl, blank, directs, ends⟩
    rcases outside_of_parse cut.read with ⟨outside, nonempty⟩
    refine ⟨[], path, kept, ?_, Text.blank_nil, cut.read, directs⟩
    have solid : Path.StopsAt Text.isSpace (path ++ kept).reverse := by
      rw [List.reverse_append]
      exact ends.append outside.ends
    rw [String.toList_ofList, cut.together, ← List.append_assoc path, List.nil_append]
    exact Text.trim_eq cut.blank blank (List.append_ne_nil_of_left_ne_nil nonempty kept)
      (outside.begins.append_right nonempty kept) solid

/-- What is kept of an expression is read as the expression is. -/
theorem parse_eq_ok_iff_of_checkSort (expression : String) (key : SortKey) :
    parse expression = .ok key ↔ Exists fun kept =>
      Statement.checkSort expression = .ok kept ∧ parse kept = .ok key := by
  constructor
  · intro parsed
    have trimmed := (parse_trim expression key).mpr parsed
    refine ⟨String.ofList (Text.trim expression.toList), ?_, trimmed⟩
    rw [Statement.checkSort, trimmed]
    rfl
  · rintro ⟨kept, checked, parsed⟩
    rcases Result.exists_of_bind_eq_ok checked with ⟨_, _, same⟩
    cases same
    exact (parse_trim expression key).mp parsed

/-! ## The canonical expression -/

theorem cutInto_write {key : SortKey} (below : key.path.isRoot = false) :
    CutInto key.write [] key.path.chars (if key.ascending then [] else " DESC".toList) key where
  together := by
    rw [write]
    split
    · rw [Path.write, String.toList_ofList, List.append_nil, List.nil_append]
    · rw [Path.write, String.toList_append, String.toList_ofList, List.nil_append]
  blank := Text.blank_nil
  read := Path.parseFor_eq_ok_iff.mpr ⟨Path.parseAllowingRoot_write key.path, below⟩
  directed := by
    cases key.ascending with
    | true => exact .unsaid Text.blank_nil
    | false =>
        exact @Directs.said [' '] ['D', 'E', 'S', 'C'] [] false (by decide) (by decide)
          ((sameIgnoringCase_directionWord false _).mp (by decide)) Text.blank_nil

/-- An expression has a key exactly if it is white space, the text of a path, and then white space
or, behind white space, a word for the direction and white space again; quoted names may contain
white space and backquotes.  There is one way to cut it so, and the cut determines the key.  The
canonical expression of a key has that key, and so has what a statement keeps of an expression. -/
theorem parse_expressions :
    (forall (expression : String) (key : SortKey), parse expression = .ok key ↔
      Exists fun front => Exists fun path => Exists fun rest =>
        CutInto expression front path rest key) ∧
    (forall (expression : String) (front path rest front' path' rest' : List Char)
        (key key' : SortKey),
      CutInto expression front path rest key -> CutInto expression front' path' rest' key' ->
        front = front' ∧ path = path' ∧ rest = rest' ∧ key = key') ∧
    (forall key : SortKey, key.path.isRoot = false -> parse key.write = .ok key) ∧
    (forall (statement : Statement) (expressions : List String) (keys : List SortKey),
      expressions.mapM parse = .ok keys ↔ Exists fun next =>
        statement.perform (.sort expressions) = .ok next ∧ next.sort.mapM parse = .ok keys) := by
  refine ⟨fun _ _ => parse_eq_ok_iff, ?_, ?_, ?_⟩
  · intro expression front path rest front' path' rest' key key' cut cutToo
    have sameKey := (parse_eq_ok_iff.mpr ⟨front, path, rest, cut⟩).symm.trans
      (parse_eq_ok_iff.mpr ⟨front', path', rest', cutToo⟩)
    rcases cut.unique cutToo with ⟨sameFront, samePath, sameRest⟩
    exact ⟨sameFront, samePath, sameRest, Except.ok.inj sameKey⟩
  · exact fun key below => parse_eq_ok_iff.mpr ⟨_, _, _, cutInto_write below⟩
  · intro statement expressions keys
    rw [Result.mapM_eq_ok_iff_of_two parse_eq_ok_iff_of_checkSort]
    constructor
    · rintro ⟨kept, checked, parsed⟩
      refine ⟨{ statement with sort := kept }, ?_, parsed⟩
      rw [Statement.perform, checked]
      rfl
    · rintro ⟨next, performed, parsed⟩
      rcases Result.exists_of_bind_eq_ok performed with ⟨kept, checked, same⟩
      cases same
      exact ⟨kept, checked, parsed⟩

/-- A path with a name that has white space and backquotes in it, downwards. -/
def crowded : SortKey :=
  ⟨⟨[.field "a", .field "x \x60y\x60 z", .index 2]⟩, false⟩

def crowdedText : String := "  a.\x60x \x60\x60y\x60\x60 z\x60[2]\u2003dEsC "

theorem cutInto_crowded :
    CutInto crowdedText [' ', ' '] "a.\x60x \x60\x60y\x60\x60 z\x60[2]".toList
      ['\u2003', 'd', 'E', 's', 'C', ' '] crowded where
  together := by cbv
  blank := by decide
  read := by cbv
  directed := @Directs.said ['\u2003'] ['d', 'E', 's', 'C'] [' '] false (by decide) (by decide)
    ((sameIgnoringCase_directionWord false _).mp (by decide)) (by decide)

theorem parse_crowded_expression :
    parse crowdedText = .ok crowded ∧
    (forall (front path rest : List Char) (key : SortKey),
      CutInto crowdedText front path rest key ->
        path = "a.\x60x \x60\x60y\x60\x60 z\x60[2]".toList ∧ key = crowded) ∧
    crowded.write = "$.a.\x60x \x60\x60y\x60\x60 z\x60[2] DESC" ∧
    parse crowded.write = .ok crowded ∧
    (Exists fun next => Statement.empty.perform (.sort [crowdedText]) = .ok next ∧
      next.sort.mapM parse = .ok [crowded]) := by
  have written : crowded.write = "$.a.\x60x \x60\x60y\x60\x60 z\x60[2] DESC" := by cbv
  have parsed := (parse_expressions.1 _ crowded).mpr ⟨_, _, _, cutInto_crowded⟩
  refine ⟨parsed, ?_, written, parse_expressions.2.2.1 crowded rfl, ?_⟩
  · intro front path rest key cut
    rcases parse_expressions.2.1 _ _ _ _ _ _ _ _ _ cut cutInto_crowded with
      ⟨_, samePath, _, sameKey⟩
    exact ⟨samePath, sameKey⟩
  · refine (parse_expressions.2.2.2 .empty _ [crowded]).mp ?_
    rw [List.mapM_cons, parsed]
    rfl

end SortKey
end Emend
