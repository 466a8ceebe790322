import Emend.Datum
import Emend.Proofs.Json.WellFormed

namespace Emend
namespace Datum

/-!
# What data show

A written value comes back as a datum.  Which one depends on the medium: bytes
and texts differ in what their integers may name, and so do data that were set
aside and data that were not.  A medium may also bring the members of objects
into another order.  A datum *shows* a value if it is the value apart from that;
the names of members are texts.

A reader is *sure* of a value if every datum that shows the value is read alike.
Readers of records are put together from readers of their fields, and so are
the proofs that they are sure; no proof about a reader speaks of a medium.
-/

mutual
/-- The datum is the value, whatever its integers may name and in whatever order
the members of its objects stand. -/
inductive Shows : Datum -> Json -> Prop where
  | null : Shows .null .null
  | bool (value : Bool) : Shows (.bool value) (.bool value)
  | integer (value : Integer64) (naming : Naming) :
      Shows (.integer value naming) (.number (.integer value))
  | float (value : Binary64) : Shows (.float value) (.number (.float value))
  | text (value : String) : Shows (.text value) (.string value)
  | list {data : List Datum} {values : List Json} (items : ShowsItems data values) :
      Shows (.list data) (.array values)
  | map {arranged entries : List (Datum × Datum)} {members : List (String × Json)}
      (named : ShowsMembers entries members) (reordered : arranged.Perm entries) :
      Shows (.map arranged) (.object members)

/-- `Shows` item by item. -/
inductive ShowsItems : List Datum -> List Json -> Prop where
  | nil : ShowsItems [] []
  | cons {datum : Datum} {value : Json} {data : List Datum} {values : List Json}
      (first : Shows datum value) (others : ShowsItems data values) :
      ShowsItems (datum :: data) (value :: values)

/-- `Shows` member by member; the names are texts. -/
inductive ShowsMembers : List (Datum × Datum) -> List (String × Json) -> Prop where
  | nil : ShowsMembers [] []
  | cons {datum : Datum} {value : Json} {entries : List (Datum × Datum)}
      {members : List (String × Json)} (name : String) (first : Shows datum value)
      (others : ShowsMembers entries members) :
      ShowsMembers ((.text name, datum) :: entries) ((name, value) :: members)
end

/-- The reader makes this of the value, by whatever datum it is shown. -/
def Sure {Value : Type} (read : Datum -> Option Value) (value : Json) (result : Value) : Prop :=
  forall datum, Shows datum value -> read datum = some result

/-- Entries in another order are the members in another order. -/
theorem ShowsMembers.exists_of_perm {arranged entries : List (Datum × Datum)}
    (reordered : arranged.Perm entries) :
    forall {members : List (String × Json)}, ShowsMembers entries members ->
      Exists fun others => ShowsMembers arranged others ∧ others.Perm members := by
  induction reordered with
  | nil => exact fun named => ⟨_, named, .refl _⟩
  | cons entry _ ih =>
      intro members named
      cases named with
      | cons name first others =>
          rcases ih others with ⟨rest, namedRest, again⟩
          exact ⟨_, .cons name first namedRest, again.cons _⟩
  | swap first second entries =>
      intro members named
      cases named with
      | cons name first others =>
          cases others with
          | cons other second others =>
              exact ⟨_, .cons other second (.cons name first others), .swap _ _ _⟩
  | trans _ _ ihFirst ihSecond =>
      intro members named
      rcases ihSecond named with ⟨between, namedBetween, later⟩
      rcases ihFirst namedBetween with ⟨others, namedOthers, earlier⟩
      exact ⟨others, namedOthers, earlier.trans later⟩

/-! ## Data of JSON values -/

mutual
theorem shows_ofJson : forall value : Json, Shows (ofJson value) value
  | .null => .null
  | .bool value => .bool value
  | .number (.integer value) => .integer value .onlyAside
  | .number (.float value) => .float value
  | .string value => .text value
  | .array items => .list (showsItems_ofItems items)
  | .object members => .map (showsMembers_ofMembers members) (.refl _)

theorem showsItems_ofItems : forall items : List Json, ShowsItems (ofItems items) items
  | [] => .nil
  | item :: rest => .cons (shows_ofJson item) (showsItems_ofItems rest)

theorem showsMembers_ofMembers : forall members : List (String × Json),
    ShowsMembers (ofMembers members) members
  | [] => .nil
  | (name, value) :: rest => .cons name (shows_ofJson value) (showsMembers_ofMembers rest)
end

/-! ## Data set aside -/

theorem setAsideEntries_eq_map (entries : List (Datum × Datum)) :
    setAsideEntries entries =
      entries.map fun entry => (Datum.setAside entry.1, Datum.setAside entry.2) := by
  induction entries with
  | nil => rfl
  | cons entry rest ih => rw [setAsideEntries, ih, List.map_cons]

theorem readableEntries_iff (entries : List (Datum × Datum)) :
    readableEntries entries = true ↔
      forall entry, entry ∈ entries -> entry.1.readable = true ∧ entry.2.readable = true := by
  induction entries with
  | nil =>
      constructor
      · intro _ entry listed
        cases listed
      · exact fun _ => rfl
  | cons entry rest ih =>
      rw [readableEntries, Bool.and_eq_true, Bool.and_eq_true, ih, List.forall_mem_cons]

mutual
theorem Shows.setAside : forall {datum : Datum} {value : Json},
    Shows datum value -> Shows datum.setAside value
  | _, _, .null => .null
  | _, _, .bool value => .bool value
  | _, _, .integer value naming => .integer value naming.setAside
  | _, _, .float value => .float value
  | _, _, .text value => .text value
  | _, _, .list items => .list items.setAside
  | _, _, .map named reordered => by
      rw [Datum.setAside]
      refine .map named.setAside ?_
      rw [setAsideEntries_eq_map, setAsideEntries_eq_map]
      exact reordered.map _

theorem ShowsItems.setAside : forall {data : List Datum} {values : List Json},
    ShowsItems data values -> ShowsItems (setAsideItems data) values
  | _, _, .nil => .nil
  | _, _, .cons first others => .cons first.setAside others.setAside

theorem ShowsMembers.setAside : forall {entries : List (Datum × Datum)}
    {members : List (String × Json)},
    ShowsMembers entries members -> ShowsMembers (setAsideEntries entries) members
  | _, _, .nil => .nil
  | _, _, .cons name first others => .cons name first.setAside others.setAside
end

mutual
theorem Shows.readable : forall {datum : Datum} {value : Json},
    Shows datum value -> datum.readable = true
  | _, _, .null | _, _, .bool _ | _, _, .integer _ _ | _, _, .float _ | _, _, .text _ => rfl
  | _, _, .list items => items.readable
  | _, _, .map named reordered => by
      rw [Datum.readable, readableEntries_iff]
      intro entry listed
      exact (readableEntries_iff _).mp named.readable entry (reordered.mem_iff.mp listed)

theorem ShowsItems.readable : forall {data : List Datum} {values : List Json},
    ShowsItems data values -> readableItems data = true
  | _, _, .nil => rfl
  | _, _, .cons first others => by
      rw [readableItems, first.readable, others.readable]
      rfl

theorem ShowsMembers.readable : forall {entries : List (Datum × Datum)}
    {members : List (String × Json)},
    ShowsMembers entries members -> readableEntries entries = true
  | _, _, .nil => rfl
  | _, _, .cons name first others => by
      rw [readableEntries, first.readable, others.readable]
      rfl
end

/-! ## Documents -/

theorem toMembers?_cons_eq_some_iff {entry : Datum × Datum} {rest : List (Datum × Datum)}
    {members : List (String × Json)} :
    toMembers? (entry :: rest) = some members ↔
      Exists fun name => Exists fun value => Exists fun others =>
        entry.1.toText? = some name ∧ entry.2.toJson? = some value ∧
          toMembers? rest = some others ∧ members = (name, value) :: others := by
  rcases entry with ⟨key, datum⟩
  rw [toMembers?]
  constructor
  · intro read
    rcases Option.bind_eq_some_iff.mp read with ⟨name, readName, behindName⟩
    rcases Option.bind_eq_some_iff.mp behindName with ⟨value, readValue, behindValue⟩
    rcases Option.bind_eq_some_iff.mp behindValue with ⟨others, readOthers, same⟩
    exact ⟨name, value, others, readName, readValue, readOthers, (Option.some.inj same).symm⟩
  · rintro ⟨name, value, others, readName, readValue, readOthers, rfl⟩
    rw [readName, readValue, readOthers]
    rfl

/-- Entries in another order are read as the members in another order. -/
theorem exists_toMembers?_of_perm {arranged entries : List (Datum × Datum)}
    (reordered : arranged.Perm entries) :
    forall {members : List (String × Json)}, toMembers? entries = some members ->
      Exists fun others => toMembers? arranged = some others ∧ others.Perm members := by
  induction reordered with
  | nil => exact fun read => ⟨_, read, .refl _⟩
  | cons entry _ ih =>
      intro members read
      rcases toMembers?_cons_eq_some_iff.mp read with ⟨name, value, rest, readName, readValue,
        readRest, rfl⟩
      rcases ih readRest with ⟨others, readOthers, again⟩
      exact ⟨_, toMembers?_cons_eq_some_iff.mpr ⟨name, value, others, readName, readValue,
        readOthers, rfl⟩, again.cons _⟩
  | swap first second entries =>
      intro members read
      rcases toMembers?_cons_eq_some_iff.mp read with ⟨name, value, rest, readName, readValue,
        readRest, rfl⟩
      rcases toMembers?_cons_eq_some_iff.mp readRest with ⟨other, next, others, readOther, readNext,
        readOthers, rfl⟩
      have behind := toMembers?_cons_eq_some_iff.mpr
        ⟨name, value, others, readName, readValue, readOthers, rfl⟩
      exact ⟨_, toMembers?_cons_eq_some_iff.mpr
        ⟨other, next, _, readOther, readNext, behind, rfl⟩, .swap _ _ _⟩
  | trans _ _ ihFirst ihSecond =>
      intro members read
      rcases ihSecond read with ⟨between, readBetween, later⟩
      rcases ihFirst readBetween with ⟨others, readOthers, earlier⟩
      exact ⟨others, readOthers, earlier.trans later⟩

/-- In another order, too, a map begins with a text. -/
theorem ShowsMembers.beginsWithText_of_perm {arranged entries : List (Datum × Datum)}
    {members : List (String × Json)} (named : ShowsMembers entries members)
    (reordered : arranged.Perm entries) : beginsWithText arranged = true := by
  rcases ShowsMembers.exists_of_perm reordered named with ⟨_, namedOthers, _⟩
  cases namedOthers <;> rfl

mutual
/-- A shown document is read as it is: its members are brought into order, and that is how
they stood. -/
theorem Shows.toJson? : forall {datum : Datum} {value : Json},
    Shows datum value -> value.WellFormed -> datum.toJson? = some value
  | _, _, .null, _ | _, _, .bool _, _ | _, _, .integer _ _, _ | _, _, .float _, _
  | _, _, .text _, _ => rfl
  | _, _, .list items, wellFormed => by
      rw [Datum.toJson?, items.toItems? wellFormed]
      rfl
  | _, _, .map named reordered, wellFormed => by
      rw [Json.WellFormed] at wellFormed
      rcases exists_toMembers?_of_perm reordered (named.toMembers? wellFormed.2) with
        ⟨others, read, again⟩
      rw [Datum.toJson?, named.beginsWithText_of_perm reordered, read]
      simp only [if_true, Option.map_some, Members.ofList_of_perm again wellFormed.1]

theorem ShowsItems.toItems? : forall {data : List Datum} {values : List Json},
    ShowsItems data values -> Json.WellFormedItems values -> toItems? data = some values
  | _, _, .nil, _ => rfl
  | _, _, .cons first others, wellFormed => by
      rw [Json.WellFormedItems] at wellFormed
      rw [Datum.toItems?, first.toJson? wellFormed.1, others.toItems? wellFormed.2]
      rfl

theorem ShowsMembers.toMembers? : forall {entries : List (Datum × Datum)}
    {members : List (String × Json)},
    ShowsMembers entries members -> Json.WellFormedMembers members ->
    toMembers? entries = some members
  | _, _, .nil, _ => rfl
  | _, _, .cons name first others, wellFormed => by
      rw [Json.WellFormedMembers] at wellFormed
      rw [Datum.toMembers?, first.toJson? wellFormed.1, others.toMembers? wellFormed.2]
      rfl
end

/-! ## Simple readings -/

theorem sure_toText? (value : String) : Sure toText? (.string value) value := by
  intro datum shows
  cases shows
  rfl

theorem sure_toUInt64? (value : UInt64) : Sure toUInt64? (.number (.ofUInt64 value)) value := by
  intro datum shows
  cases shows
  have nonnegative : (0 : Int) ≤ value.toNat := Int.natCast_nonneg _
  rw [toUInt64?, if_pos nonnegative, Int.toNat_natCast, UInt64.ofNat_toNat]

theorem sure_toInt64? (value : Int64) : Sure toInt64? (.number (.ofInt64 value)) value := by
  intro datum shows
  cases shows
  have below : value.toInt < Nat.pow 2 63 := value.toInt_lt
  rw [toInt64?, if_pos below, Int64.ofInt_toInt]

theorem sure_toJson? {value : Json} (wellFormed : value.WellFormed) :
    Sure toJson? value value :=
  fun _ shows => shows.toJson? wellFormed

section Lists

variable {Item Value : Type} {read : Datum -> Option Value} {form : Item -> Json}
  {result : Item -> Value}

theorem ShowsItems.mapM {items : List Item} {data : List Datum} :
    ShowsItems data (items.map form) ->
      (forall item, item ∈ items -> Sure read (form item) (result item)) ->
      data.mapM read = some (items.map result) := by
  induction items generalizing data with
  | nil =>
      intro shows _
      cases shows
      rfl
  | cons item rest ih =>
      intro shows each
      cases shows with
      | cons first others =>
          have parts := List.forall_mem_cons.mp each
          rw [List.mapM_cons, parts.1 _ first, ih others parts.2]
          rfl

theorem Sure.toList?_map {items : List Item}
    (each : forall item, item ∈ items -> Sure read (form item) (result item)) :
    Sure (toList? read) (.array (items.map form)) (items.map result) := by
  intro datum shows
  cases shows with
  | list shown => exact shown.mapM each

/-- A list whose items are read as they were written. -/
theorem Sure.toList? {form : Value -> Json} {items : List Value}
    (each : forall item, item ∈ items -> Sure read (form item) item) :
    Sure (toList? read) (.array (items.map form)) items := by
  have sure := Sure.toList?_map each
  rw [List.map_id'] at sure
  exact sure

end Lists

section Optional

variable {Value : Type} {read : Datum -> Option Value}

theorem sure_orNull?_null : Sure (orNull? read) .null none := by
  intro datum shows
  cases shows
  rfl

theorem Sure.orNull? {value : Json} {result : Value} (sure : Sure read value result)
    (notNull : value.isNull = false) : Sure (orNull? read) value (some result) := by
  intro datum shows
  have inside : (read datum).map some = some (some result) := by
    rw [sure datum shows]
    rfl
  cases shows with
  | null => cases notNull
  | bool | integer | float | text | list | map => exact inside

/-- A value that is written as null when there is none. -/
theorem sure_orNull?_getD {form : Value -> Json} {option : Option Value}
    (sure : forall value, option = some value -> Sure read (form value) value)
    (notNull : forall value, (form value).isNull = false) :
    Sure (orNull? read) ((option.map form).getD .null) option := by
  cases option with
  | none => exact sure_orNull?_null
  | some value => exact (sure value rfl).orNull? (notNull value)

end Optional

end Datum
end Emend
