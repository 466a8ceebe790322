import Emend.Proofs.Datum.Quoted
import Emend.Proofs.Datum.Shows
import Emend.Proofs.Json.Nesting
import Emend.Proofs.Number.Numeral

namespace Emend

/-!
# Indented texts are read back

The reader goes down to a fixed depth, and the writer to any.  So the indented text of a
document is read as that document exactly if the document is not nested too deep; nothing else
about it matters.  Every item and every member ends where a comma, a new line or the text
ends, and there no number can go on.
-/

namespace Datum

open Emend.Path (StopsAt stopsAt_cons dropWhile_of_stopsAt)
open Numeral (goesOn)

/-! ## Data down to a depth -/

mutual
/-- The datum of a value for a reader that can go down a number of levels: what is nested
deeper is unreadable. -/
def cut (depth : Nat) : Json -> Datum
  | .null => .null
  | .bool value => .bool value
  | .number value => ofNumber value
  | .string value => .text value
  | .array items => atDepth depth (.list (cutItems (depth - 1) items))
  | .object members => atDepth depth (.map (cutMembers (depth - 1) members))

/-- `cut` for each item of an array. -/
def cutItems (depth : Nat) : List Json -> List Datum
  | [] => []
  | item :: rest => cut depth item :: cutItems depth rest

/-- `cut` for each member of an object. -/
def cutMembers (depth : Nat) : List (String × Json) -> List (Datum × Datum)
  | [] => []
  | (name, value) :: rest => (.text name, cut depth value) :: cutMembers depth rest
end

mutual
/-- A value that is not nested deeper than the reader goes is not cut. -/
theorem cut_of_nesting_le (depth : Nat) (value : Json) (reached : value.nesting ≤ depth) :
    cut depth value = ofJson value := by
  cases value with
  | null => rfl
  | bool value => rfl
  | number value => rfl
  | string value => rfl
  | array items =>
      cases depth with
      | zero => cases reached
      | succ depth =>
          rw [cut, ofJson, Nat.add_sub_cancel,
            cutItems_of_nesting_le depth items (Nat.le_of_succ_le_succ reached)]
          rfl
  | object members =>
      cases depth with
      | zero => cases reached
      | succ depth =>
          rw [cut, ofJson, Nat.add_sub_cancel,
            cutMembers_of_nesting_le depth members (Nat.le_of_succ_le_succ reached)]
          rfl

theorem cutItems_of_nesting_le (depth : Nat) (items : List Json)
    (reached : Json.nestingItems items ≤ depth) : cutItems depth items = ofItems items := by
  cases items with
  | nil => rfl
  | cons item rest =>
      rw [Json.nestingItems, Nat.max_le] at reached
      rw [cutItems, ofItems, cut_of_nesting_le depth item reached.1,
        cutItems_of_nesting_le depth rest reached.2]

theorem cutMembers_of_nesting_le (depth : Nat) (members : List (String × Json))
    (reached : Json.nestingMembers members ≤ depth) :
    cutMembers depth members = ofMembers members := by
  cases members with
  | nil => rfl
  | cons member rest =>
      rcases member with ⟨name, value⟩
      rw [Json.nestingMembers, Nat.max_le] at reached
      rw [cutMembers, ofMembers, cut_of_nesting_le depth value reached.1,
        cutMembers_of_nesting_le depth rest reached.2]
end

mutual
/-- A value that is cut anywhere denotes nothing. -/
theorem toJson?_cut_of_lt (depth : Nat) (value : Json) (tooDeep : depth < value.nesting) :
    (cut depth value).toJson? = none := by
  cases value with
  | null => cases tooDeep
  | bool value => cases tooDeep
  | number value => cases tooDeep
  | string value => cases tooDeep
  | array items =>
      cases depth with
      | zero => rfl
      | succ depth =>
          have none := toItems?_cutItems_of_lt depth items (Nat.lt_of_succ_lt_succ tooDeep)
          rw [cut, Nat.add_sub_cancel, atDepth, if_neg (Nat.succ_ne_zero depth), toJson?, none]
          rfl
  | object members =>
      cases depth with
      | zero => rfl
      | succ depth =>
          have none := toMembers?_cutMembers_of_lt depth members
            (Nat.lt_of_succ_lt_succ tooDeep)
          rw [cut, Nat.add_sub_cancel, atDepth, if_neg (Nat.succ_ne_zero depth), toJson?, none]
          exact ite_self _

theorem toItems?_cutItems_of_lt (depth : Nat) (items : List Json)
    (tooDeep : depth < Json.nestingItems items) : toItems? (cutItems depth items) = none := by
  cases items with
  | nil => cases tooDeep
  | cons item rest =>
      rw [cutItems, toItems?]
      rcases lt_max_iff.mp tooDeep with here | there
      · rw [toJson?_cut_of_lt depth item here]
        rfl
      · rw [toItems?_cutItems_of_lt depth rest there]
        cases (cut depth item).toJson? <;> rfl

theorem toMembers?_cutMembers_of_lt (depth : Nat) (members : List (String × Json))
    (tooDeep : depth < Json.nestingMembers members) :
    toMembers? (cutMembers depth members) = none := by
  cases members with
  | nil => cases tooDeep
  | cons member rest =>
      rcases member with ⟨name, value⟩
      rw [cutMembers, toMembers?, toText?]
      rcases lt_max_iff.mp tooDeep with here | there
      · rw [toJson?_cut_of_lt depth value here]
        rfl
      · rw [toMembers?_cutMembers_of_lt depth rest there]
        cases (cut depth value).toJson? <;> rfl
end

/-! ## Blanks -/

theorem skipBlanks_cons {c : Char} (visible : isBlank c = false) (rest : List Char) :
    skipBlanks (c :: rest) = c :: rest :=
  dropWhile_of_stopsAt (stopsAt_cons rest visible)

theorem skipBlanks_newLine (level : Nat) (rest : List Char) :
    skipBlanks (Json.newLine level ++ rest) = skipBlanks rest := by
  apply List.dropWhile_append_of_pos
  intro c listed
  rcases List.mem_cons.mp listed with same | blank
  · rw [same]
    rfl
  · rw [(List.mem_replicate.mp blank).2]
    rfl

/-- The reader of a value does not see the blanks in front of it. -/
theorem readValue?_congr {bound depth : Nat} {input other : List Char}
    (same : skipBlanks input = skipBlanks other) :
    readValue? bound depth input = readValue? bound depth other := by
  cases bound with
  | zero => rw [readValue?, readValue?]
  | succ bound => rw [readValue?, readValue?, same]

/-! ## Where texts begin and end -/

/-- Characters with which the text of a number begins. -/
def beginsNumber (c : Char) : Bool :=
  c.isDigit || c == '-'

theorem ne_of_beginsNumber {c other : Char} (first : beginsNumber c = true)
    (never : beginsNumber other = false) : c ≠ other := by
  intro same
  rw [same, never] at first
  cases first

theorem exists_write_eq_cons (value : Number) :
    Exists fun c => Exists fun tail => value.write = c :: tail ∧ beginsNumber c = true := by
  have spelled := Numeral.spelled_ofNumber value
  rw [← Numeral.chars_ofNumber, Numeral.chars]
  split
  · exact ⟨'-', _, rfl, rfl⟩
  · rw [Numeral.body]
    cases whole : (Numeral.ofNumber value).whole with
    | nil => exact absurd whole spelled.notEmpty
    | cons c tail =>
        have digit : c.isDigit = true := spelled.whole c (by rw [whole]; exact List.mem_cons_self)
        refine ⟨c, _, rfl, ?_⟩
        rw [beginsNumber, digit, Bool.true_or]

/-- Characters that no text of a value begins with. -/
def separates (c : Char) : Bool :=
  isBlank c || [',', ':', ']', '}'].contains c

theorem separates_of_beginsNumber {c : Char} (first : beginsNumber c = true) :
    separates c = false := by
  apply Bool.eq_false_iff.mpr
  intro separate
  simp only [separates, isBlank, List.contains_cons, List.contains_nil, Bool.or_eq_true,
    beq_iff_eq, Bool.or_false] at separate
  rcases separate with (((blank | tab) | line) | carriage) | comma | colon | bracket | brace
  all_goals
    subst c
    cases first

theorem isBlank_of_beginsNumber {c : Char} (first : beginsNumber c = true) :
    isBlank c = false :=
  (Bool.or_eq_false_iff.mp (separates_of_beginsNumber first)).1

theorem exists_indentedChars_eq_cons (level : Nat) (value : Json) :
    Exists fun c => Exists fun tail =>
      value.indentedChars level = c :: tail ∧ separates c = false := by
  cases value with
  | null => exact ⟨_, _, by rw [Json.indentedChars], rfl⟩
  | bool flag => cases flag <;> exact ⟨_, _, by rw [Json.indentedChars], rfl⟩
  | number value =>
      rcases exists_write_eq_cons value with ⟨c, tail, written, first⟩
      exact ⟨c, tail, by rw [Json.indentedChars, written], separates_of_beginsNumber first⟩
  | string text => exact ⟨_, _, by rw [Json.indentedChars, Json.quote]; rfl, rfl⟩
  | array items =>
      cases items <;> exact ⟨_, _, by rw [Json.indentedChars] <;> rfl, rfl⟩
  | object members =>
      cases members <;> exact ⟨_, _, by rw [Json.indentedChars] <;> rfl, rfl⟩

/-- No blanks stand in front of the text of a value. -/
theorem skipBlanks_indentedChars (level : Nat) (value : Json) (rest : List Char) :
    skipBlanks (value.indentedChars level ++ rest) = value.indentedChars level ++ rest := by
  rcases exists_indentedChars_eq_cons level value with ⟨c, tail, text, visible⟩
  rw [separates, Bool.or_eq_false_iff] at visible
  rw [text, List.cons_append, skipBlanks_cons visible.1]

/-! ## Scalars -/

theorem readScalar?_number (value : Number) {rest : List Char} (ends : StopsAt goesOn rest) :
    readScalar? (value.write ++ rest) = some (ofNumber value, rest) := by
  rcases exists_write_eq_cons value with ⟨c, tail, written, first⟩
  have read := Numeral.read?_write value ends
  rw [written, List.cons_append] at read ⊢
  rw [readScalar?, read]
  · simp only [Option.bind_eq_bind, Option.bind_some, Numeral.toNumber?_ofNumber]
  all_goals
    rintro others same
    exact ne_of_beginsNumber first (by decide) (List.cons.inj same).1

theorem readValue?_scalar {c : Char} (visible : isBlank c = false) (noArray : c ≠ '[')
    (noObject : c ≠ '{') (bound depth : Nat) (rest : List Char) :
    readValue? (bound + 1) depth (c :: rest) = readScalar? (c :: rest) := by
  rw [readValue?, skipBlanks_cons visible]
  split
  · next same => exact absurd (List.cons.inj same).1 noArray
  · next same => exact absurd (List.cons.inj same).1 noObject
  · rfl

/-! ## Arrays and objects -/

theorem readValue?_array {bound depth : Nat} {text rest : List Char} {items : List Datum}
    {c : Char} {tail : List Char} (first : skipBlanks text = c :: tail) (filled : c ≠ ']')
    (read : readItems? bound (depth - 1) text = some (items, rest)) :
    readValue? (bound + 1) depth ('[' :: text) = some (atDepth depth (.list items), rest) := by
  rw [readValue?, skipBlanks_cons rfl]
  simp only [first, read]
  split
  · next same => exact absurd (List.cons.inj same).1 filled
  · rfl

theorem readValue?_object {bound depth : Nat} {text rest : List Char}
    {entries : List (Datum × Datum)} {c : Char} {tail : List Char}
    (first : skipBlanks text = c :: tail) (filled : c ≠ '}')
    (read : readEntries? bound (depth - 1) text = some (entries, rest)) :
    readValue? (bound + 1) depth ('{' :: text) = some (atDepth depth (.map entries), rest) := by
  rw [readValue?, skipBlanks_cons rfl]
  simp only [first, read]
  split
  · next same => exact absurd (List.cons.inj same).1 filled
  · rfl

section Steps

variable {bound depth : Nat} {text behind more rest : List Char}

theorem readItems?_last {item : Datum}
    (read : readValue? bound depth text = some (item, behind))
    (closed : skipBlanks behind = ']' :: rest) :
    readItems? (bound + 1) depth text = some ([item], rest) := by
  simp only [readItems?, read, closed, Option.bind_eq_bind, Option.bind_some]

theorem readItems?_next {item : Datum} {items : List Datum}
    (read : readValue? bound depth text = some (item, behind))
    (goesOn : skipBlanks behind = ',' :: more)
    (others : readItems? bound depth more = some (items, rest)) :
    readItems? (bound + 1) depth text = some (item :: items, rest) := by
  simp only [readItems?, read, goesOn, others, Option.bind_eq_bind, Option.bind_some]

variable {name : String} {named : List Char} {value : Datum}

theorem readEntries?_last (first : skipBlanks text = Json.quote name ++ ':' :: named)
    (read : readValue? bound depth named = some (value, behind))
    (closed : skipBlanks behind = '}' :: rest) :
    readEntries? (bound + 1) depth text = some ([(.text name, value)], rest) := by
  have string := readString?_quote name (':' :: named)
  have colon : skipBlanks (':' :: named) = ':' :: named := skipBlanks_cons rfl named
  rw [Json.quote, List.append_assoc] at first
  simp only [readEntries?, first, List.cons_append, List.nil_append, string, colon, read, closed,
    Option.bind_eq_bind, Option.bind_some]

theorem readEntries?_next {entries : List (Datum × Datum)}
    (first : skipBlanks text = Json.quote name ++ ':' :: named)
    (read : readValue? bound depth named = some (value, behind))
    (goesOn : skipBlanks behind = ',' :: more)
    (others : readEntries? bound depth more = some (entries, rest)) :
    readEntries? (bound + 1) depth text = some ((.text name, value) :: entries, rest) := by
  have string := readString?_quote name (':' :: named)
  have colon : skipBlanks (':' :: named) = ':' :: named := skipBlanks_cons rfl named
  rw [Json.quote, List.append_assoc] at first
  simp only [readEntries?, first, List.cons_append, List.nil_append, string, colon, read, goesOn,
    others, Option.bind_eq_bind, Option.bind_some]

end Steps

/-! ## Values -/

/-- The first item of an array does not look like its end. -/
theorem exists_skipBlanks_indentedItems (level : Nat) (item : Json) (others : List Json)
    (behind : List Char) :
    Exists fun c => Exists fun tail =>
      skipBlanks (Json.indentedItems level (item :: others) ++ behind) = c :: tail ∧ c ≠ ']' := by
  have front : Exists fun more =>
      Json.indentedItems level (item :: others) ++ behind =
        Json.newLine level ++ (item.indentedChars level ++ more) := by
    cases others with
    | nil => exact ⟨behind, by rw [Json.indentedItems, List.append_assoc]⟩
    | cons next others =>
        exact ⟨_, by rw [Json.indentedItems, List.append_assoc, List.append_assoc]⟩
  rcases front with ⟨more, same⟩
  rcases exists_indentedChars_eq_cons level item with ⟨c, tail, text, visible⟩
  refine ⟨c, tail ++ more, ?_, ?_⟩
  · rw [same, skipBlanks_newLine, skipBlanks_indentedChars, text, List.cons_append]
  · rintro rfl
    cases visible

theorem exists_skipBlanks_indentedMembers (level : Nat) (member : String × Json)
    (others : List (String × Json)) (behind : List Char) :
    Exists fun tail =>
      skipBlanks (Json.indentedMembers level (member :: others) ++ behind) = '"' :: tail := by
  rcases member with ⟨name, value⟩
  cases others with
  | nil =>
      rw [Json.indentedMembers, List.append_assoc, List.append_assoc, skipBlanks_newLine]
      exact ⟨_, skipBlanks_cons rfl _⟩
  | cons next others =>
      rw [Json.indentedMembers, List.append_assoc, List.append_assoc, List.append_assoc,
        skipBlanks_newLine]
      exact ⟨_, skipBlanks_cons rfl _⟩

theorem skipBlanks_space (rest : List Char) : skipBlanks (' ' :: rest) = skipBlanks rest :=
  List.dropWhile_cons_of_pos rfl

theorem length_newLine (level : Nat) : 0 < (Json.newLine level).length :=
  Nat.succ_pos _

-- The induction is on the bound, which every call lowers.  It stays above twice the length of what
-- is left because a bracket or a new line stands in front of every part.
mutual
/-- From the indented text of a value the reader takes the value, as deep as it goes, and
nothing else. -/
theorem readValue?_indentedChars (value : Json) (level depth bound : Nat) {rest : List Char}
    (ends : StopsAt goesOn rest) (enough : 2 * (value.indentedChars level).length < bound) :
    readValue? bound depth (value.indentedChars level ++ rest) = some (cut depth value, rest) := by
  cases bound with
  | zero => cases enough
  | succ bound =>
    cases value with
    | null => rfl
    | bool flag => cases flag <;> rfl
    | number value =>
        rcases exists_write_eq_cons value with ⟨c, tail, written, first⟩
        have read := readScalar?_number value ends
        rw [written, List.cons_append] at read
        rw [Json.indentedChars, written, List.cons_append,
          readValue?_scalar (isBlank_of_beginsNumber first) (ne_of_beginsNumber first rfl)
            (ne_of_beginsNumber first rfl), read, cut]
    | string text =>
        rw [Json.indentedChars, Json.quote, List.cons_append, List.cons_append, List.append_assoc]
        exact readString?_quote text rest
    | array items =>
        cases items with
        | nil => rfl
        | cons item others =>
            rw [Json.indentedChars, List.length_append, List.length_append, List.length_cons]
              at enough
            have bracket : skipBlanks (Json.newLine level ++ ']' :: rest) = ']' :: rest := by
              rw [skipBlanks_newLine, skipBlanks_cons rfl]
            have read := readItems?_indentedItems item others (level + 1) (depth - 1) bound
              (stopsAt_cons _ rfl) bracket (by omega)
            rcases exists_skipBlanks_indentedItems (level + 1) item others
              (Json.newLine level ++ ']' :: rest) with ⟨c, tail, first, filled⟩
            rw [Json.indentedChars, List.append_assoc, List.append_assoc]
            exact readValue?_array first filled read
    | object members =>
        cases members with
        | nil => rfl
        | cons member others =>
            rcases member with ⟨name, value⟩
            rw [Json.indentedChars, List.length_append, List.length_append, List.length_cons]
              at enough
            have brace : skipBlanks (Json.newLine level ++ '}' :: rest) = '}' :: rest := by
              rw [skipBlanks_newLine, skipBlanks_cons rfl]
            have read := readEntries?_indentedMembers name value others (level + 1) (depth - 1)
              bound (stopsAt_cons _ rfl) brace (by omega)
            rcases exists_skipBlanks_indentedMembers (level + 1) (name, value) others
              (Json.newLine level ++ '}' :: rest) with ⟨tail, first⟩
            rw [Json.indentedChars, List.append_assoc, List.append_assoc]
            exact readValue?_object first (by decide) read
termination_by bound

theorem readItems?_indentedItems (item : Json) (others : List Json) (level depth bound : Nat)
    {behind rest : List Char} (ends : StopsAt goesOn behind)
    (closed : skipBlanks behind = ']' :: rest)
    (enough : 2 * (Json.indentedItems level (item :: others)).length < bound) :
    readItems? bound depth (Json.indentedItems level (item :: others) ++ behind) =
      some (cutItems depth (item :: others), rest) := by
  cases bound with
  | zero => cases enough
  | succ bound =>
    have lines := length_newLine level
    cases others with
    | nil =>
        rw [Json.indentedItems, List.length_append] at enough
        apply readItems?_last _ closed
        rw [Json.indentedItems, List.append_assoc, readValue?_congr (skipBlanks_newLine level _)]
        exact readValue?_indentedChars item level depth bound ends (by omega)
    | cons next others =>
        rw [Json.indentedItems, List.length_append, List.length_append, List.length_cons] at enough
        apply readItems?_next _ (skipBlanks_cons rfl _)
          (readItems?_indentedItems next others level depth bound ends closed (by omega))
        rw [Json.indentedItems, List.append_assoc, List.append_assoc, List.cons_append,
          readValue?_congr (skipBlanks_newLine level _)]
        exact readValue?_indentedChars item level depth bound (stopsAt_cons _ rfl)
          (by omega)
termination_by bound

theorem readEntries?_indentedMembers (name : String) (value : Json)
    (others : List (String × Json)) (level depth bound : Nat) {behind rest : List Char}
    (ends : StopsAt goesOn behind) (closed : skipBlanks behind = '}' :: rest)
    (enough : 2 * (Json.indentedMembers level ((name, value) :: others)).length < bound) :
    readEntries? bound depth (Json.indentedMembers level ((name, value) :: others) ++ behind) =
      some (cutMembers depth ((name, value) :: others), rest) := by
  cases bound with
  | zero => cases enough
  | succ bound =>
    cases others with
    | nil =>
        rw [Json.indentedMembers, List.length_append, List.length_append, List.length_cons,
          List.length_cons] at enough
        apply readEntries?_last _ _ closed
        · exact ' ' :: (value.indentedChars level ++ behind)
        · rw [Json.indentedMembers, List.append_assoc, List.append_assoc, skipBlanks_newLine]
          exact skipBlanks_cons rfl _
        · rw [readValue?_congr (skipBlanks_space _)]
          exact readValue?_indentedChars value level depth bound ends (by omega)
    | cons next others =>
        rcases next with ⟨nextName, nextValue⟩
        rw [Json.indentedMembers, List.length_append, List.length_append, List.length_append,
          List.length_cons, List.length_cons, List.length_cons] at enough
        apply readEntries?_next _ _ (skipBlanks_cons rfl _)
          (readEntries?_indentedMembers nextName nextValue others level depth bound ends closed
            (by omega))
        · exact ' ' :: (value.indentedChars level ++ ',' ::
            (Json.indentedMembers level ((nextName, nextValue) :: others) ++ behind))
        · rw [Json.indentedMembers, List.append_assoc, List.append_assoc, List.append_assoc,
            skipBlanks_newLine]
          exact skipBlanks_cons rfl _
        · rw [readValue?_congr (skipBlanks_space _)]
          exact readValue?_indentedChars value level depth bound (stopsAt_cons _ rfl)
            (by omega)
termination_by bound
end

/-- The datum of the indented text of a value. -/
theorem ofText?_indented (value : Json) :
    ofText? value.indented = some (cut nestingLimit value) := by
  have ends : StopsAt goesOn [] := by
    rintro c tail ⟨⟩
  have read := readValue?_indentedChars value 0 nestingLimit
    (2 * (value.indentedChars 0).length + 2) ends (by omega)
  rw [List.append_nil] at read
  rw [ofText?, Json.indented, String.toList_ofList]
  simp only [read, Option.bind_eq_bind, Option.bind_some]
  rfl

theorem ofText?_indented_of_nesting_le {value : Json} (reached : value.nesting ≤ nestingLimit) :
    ofText? value.indented = some (ofJson value) := by
  rw [ofText?_indented, cut_of_nesting_le _ value reached]

end Datum

/-- The indented text of a document is read as that document, unless the document is nested
deeper than the limit: then it is not read at all. -/
theorem Json.ofText?_indented {value : Json} (wellFormed : value.WellFormed) :
    ofText? value.indented = if value.nesting ≤ Datum.nestingLimit then some value else none := by
  split
  · next reached =>
      rw [ofText?, Datum.ofText?_indented_of_nesting_le reached, Option.bind_some,
        (Datum.shows_ofJson value).toJson? wellFormed]
  · next tooDeep =>
      rw [ofText?, Datum.ofText?_indented, Option.bind_some]
      exact Datum.toJson?_cut_of_lt _ value (Nat.not_le.mp tooDeep)

end Emend
