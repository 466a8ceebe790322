import Emend.Datum.Record
import Emend.Proofs.Datum.Shows

namespace Emend
namespace Datum

/-!
# Reading written records

A record is written as an object with each name once.  Whatever datum shows
that object, its tag is found and each declared field is given exactly if it was
written, so a reader of a record is sure as soon as the readers of its fields
are.
-/

/-! ## Names in a map -/

section Names

variable {entries : List (Datum × Datum)} {members : List (String × Json)}

theorem isNamed_text (wanted name : String) : isNamed wanted (.text name) = (name == wanted) := rfl

theorem ShowsMembers.filter_eq_nil {wanted : String} (named : ShowsMembers entries members)
    (absent : forall member, member ∈ members -> member.1 ≠ wanted) :
    (entries.filter fun entry => isNamed wanted entry.1) = [] := by
  induction members generalizing entries with
  | nil =>
      cases named
      rfl
  | cons member rest ih =>
      cases named with
      | cons name first others =>
          have parts := List.forall_mem_cons.mp absent
          have skipped : isNamed wanted (.text name) = false := by
            rw [isNamed_text]
            exact beq_eq_false_iff_ne.mpr parts.1
          rw [List.filter_cons_of_neg (by rw [skipped]; exact Bool.false_ne_true)]
          exact ih others parts.2

theorem ShowsMembers.filter_not_eq_self {wanted : String} (named : ShowsMembers entries members)
    (absent : forall member, member ∈ members -> member.1 ≠ wanted) :
    (entries.filter fun entry => !isNamed wanted entry.1) = entries := by
  apply List.filter_eq_self.mpr
  intro entry listed
  have notNamed := List.filter_eq_nil_iff.mp (named.filter_eq_nil absent) entry listed
  rw [Bool.eq_false_iff.mpr notNamed]
  rfl

theorem ShowsMembers.key (named : ShowsMembers entries members) :
    forall entry, entry ∈ entries -> Exists fun name => entry.1 = .text name := by
  induction members generalizing entries with
  | nil =>
      cases named
      intro entry listed
      cases listed
  | cons member rest ih =>
      cases named with
      | cons name first others =>
          exact List.forall_mem_cons.mpr ⟨⟨name, rfl⟩, ih others⟩

/-- What a record says about a name: with each name once there is at most one
entry. -/
inductive ShowsSlot : Slot -> Option Json -> Prop where
  | given {datum : Datum} {value : Json} (shows : Shows datum value) :
      ShowsSlot (.given datum) (some value)
  | missing : ShowsSlot .missing none

/-- The slot of the entries with a name. -/
def slotOf (found : List (Datum × Datum)) : Slot :=
  match found with
  | [] => .missing
  | (_, datum) :: _ => .given datum

theorem ShowsMembers.named (shown : ShowsMembers entries members)
    (distinct : (members.map Prod.fst).Nodup) (wanted : String) :
    (entries.filter fun entry => isNamed wanted entry.1).length ≤ 1 ∧
      ShowsSlot (slotOf (entries.filter fun entry => isNamed wanted entry.1))
        (Members.get? members wanted) := by
  induction members generalizing entries with
  | nil =>
      cases shown
      exact ⟨Nat.zero_le 1, .missing⟩
  | cons member rest ih =>
      cases shown with
      | cons name first others =>
          rcases List.nodup_cons.mp distinct with ⟨once, distinctRest⟩
          by_cases same : name = wanted
          · subst wanted
            have behind : forall member, member ∈ rest -> member.1 ≠ name := by
              intro member listed again
              exact once (List.mem_map.mpr ⟨member, listed, again⟩)
            rw [List.filter_cons_of_pos (by rw [isNamed_text]; exact beq_self_eq_true name),
              others.filter_eq_nil behind, Members.get?_cons_same]
            exact ⟨Nat.le_refl 1, .given first⟩
          · have skipped : isNamed wanted (.text name) = false := by
              rw [isNamed_text]
              exact beq_eq_false_iff_ne.mpr same
            rw [List.filter_cons_of_neg (by rw [skipped]; exact Bool.false_ne_true),
              Members.get?_cons_of_ne (Ne.symm same)]
            exact ih others distinctRest

end Names

/-! ## Tagged values -/

/-- The tag of a written value is found wherever it stands, and what is left is the
record of the other fields. -/
theorem Shows.untag? {datum : Datum} {tag kind : String} {members : List (String × Json)}
    (shows : Shows datum (.object ((tag, .string kind) :: members)))
    (apart : forall member, member ∈ members -> member.1 ≠ tag) :
    Exists fun record =>
      datum.untag? tag = some (.text kind, record) ∧ Shows record (.object members) := by
  have readable := shows.readable
  cases shows with
  | @map arranged _ _ named reordered =>
      cases named with
      | @cons tagDatum _ entries _ _ first others =>
          cases first
          have isTag : isNamed tag (.text tag) = true := by
            rw [isNamed_text]
            exact beq_self_eq_true tag
          have tagged : (arranged.filter fun entry => isNamed tag entry.1) =
              [(.text tag, .text kind)] := by
            apply List.perm_singleton.mp
            have alone := reordered.filter fun entry => isNamed tag entry.1
            simpa only [List.filter_cons, isTag, if_true, others.filter_eq_nil apart] using alone
          have untagged : (arranged.filter fun entry => !isNamed tag entry.1).Perm entries := by
            have rest := reordered.filter fun entry => !isNamed tag entry.1
            simpa only [List.filter_cons, isTag, Bool.not_true, Bool.false_eq_true, if_false,
              others.filter_not_eq_self apart] using rest
          refine ⟨Datum.setAside (.map (arranged.filter fun entry => !isNamed tag entry.1)), ?_,
            (Shows.map others untagged).setAside⟩
          simp only [Datum.untag?, readable, if_true, tagged]

/-! ## Fields -/

section Fields

variable {fields : List String}

/-- In a list of different fields the number of a field stands for that field
only. -/
theorem idxOf?_eq_iff (distinct : fields.Nodup) {number : Nat} {field : String}
    (here : fields[number]? = some field) (name : String) :
    fields.idxOf? name = some number ↔ name = field := by
  rcases List.getElem?_eq_some_iff.mp here with ⟨inside, same⟩
  rw [List.idxOf?_eq_some_iff]
  constructor
  · rintro ⟨_, found, _⟩
    exact found.symm.trans same
  · rintro rfl
    refine ⟨inside, same, ?_⟩
    intro earlier before again
    have different := List.pairwise_iff_getElem.mp distinct earlier number (by omega) inside before
    exact different (again.trans same.symm)

/-- A pass over the numbers of the fields is a pass over the fields. -/
theorem mapM_range' {Value : Type} {step : Nat -> Option Value} {result : String -> Value} :
    forall (fields : List String) (start : Nat),
      (forall number field, fields[number]? = some field ->
        step (start + number) = some (result field)) ->
      (List.range' start fields.length).mapM step = some (fields.map result)
  | [], _, _ => rfl
  | field :: rest, start, each => by
      have first : step start = some (result field) := each 0 field rfl
      have others : (List.range' (start + 1) rest.length).mapM step = some (rest.map result) := by
        apply mapM_range' rest (start + 1)
        intro number other here
        rw [Nat.add_assoc, Nat.add_comm 1]
        exact each (number + 1) other here
      rw [List.length_cons, List.range'_succ, List.mapM_cons, first, others]
      rfl

/-- The names of a written record are numbers of fields. -/
theorem ShowsMembers.numbered? {entries : List (Datum × Datum)} {members : List (String × Json)}
    (named : ShowsMembers entries members) :
    numbered? fields entries = some (entries.map fun entry =>
      (entry.1.toText?.bind fields.idxOf?, entry.2)) := by
  induction members generalizing entries with
  | nil =>
      cases named
      rfl
  | cons member rest ih =>
      cases named with
      | cons name first others =>
          have behind := ih others
          rw [Datum.numbered?] at behind ⊢
          rw [List.mapM_cons, behind]
          rfl

/-- Every declared field of a written record is given if it was written, and
missing otherwise. -/
theorem Shows.slots? {datum : Datum} {members : List (String × Json)}
    (shows : Shows datum (.object members)) (fields : List String)
    (distinct : (members.map Prod.fst).Nodup) (different : fields.Nodup) :
    Exists fun slot : String -> Slot => datum.slots? fields = some (fields.map slot) ∧
      forall field, ShowsSlot (slot field) (Members.get? members field) := by
  cases shows with
  | @map entries _ _ written reordered =>
      rcases ShowsMembers.exists_of_perm reordered written with ⟨others, named, again⟩
      have distinctOthers := (again.map Prod.fst).nodup_iff.mpr distinct
      let found := fun field => entries.filter fun entry => isNamed field entry.1
      refine ⟨fun field => slotOf (found field), ?_, fun field => ?_⟩
      case refine_2 =>
        rw [← Members.get?_of_perm again distinctOthers]
        exact (named.named distinctOthers field).2
      rw [Datum.slots?, named.numbered?, Option.bind_eq_bind, Option.bind_some,
        List.range_eq_range']
      apply mapM_range' fields 0
      intro number field here
      have sameEntries : ((entries.map fun entry =>
            (entry.1.toText?.bind fields.idxOf?, entry.2)).filter fun entry =>
              entry.1 == some (0 + number)) =
          (found field).map fun entry => (entry.1.toText?.bind fields.idxOf?, entry.2) := by
        rw [List.filter_map]
        apply congrArg
        apply List.filter_congr
        intro entry listed
        rcases named.key entry listed with ⟨name, key⟩
        rw [Function.comp_apply, key, Nat.zero_add, isNamed_text, Bool.eq_iff_iff, beq_iff_eq,
          beq_iff_eq]
        exact idxOf?_eq_iff different here name
      have atMostOne : (found field).length ≤ 1 := (named.named distinctOthers field).1
      rw [sameEntries]
      cases entriesFound : found field with
      | nil => rfl
      | cons entry others =>
          rw [entriesFound] at atMostOne
          cases others with
          | nil => rfl
          | cons second others => simp at atMostOne

end Fields

/-! ## Readers of fields -/

section Slots

variable {Value : Type} {read : Datum -> Option Value} {slot : Slot} {value : Json}
  {result : Value}

theorem ShowsSlot.required? (shows : ShowsSlot slot (some value)) (sure : Sure read value result) :
    slot.required? read = some result := by
  cases shows with
  | given shown => exact sure _ shown

theorem ShowsSlot.orElse? {default : Value} (shows : ShowsSlot slot (some value))
    (sure : Sure read value result) : slot.orElse? default read = some result := by
  cases shows with
  | given shown => exact sure _ shown

theorem ShowsSlot.orElse?_missing {default : Value} (shows : ShowsSlot slot none) :
    slot.orElse? default read = some default := by
  cases shows
  rfl

/-- A field that is left out when there is no value for it. -/
theorem ShowsSlot.orElse?_orNull? {form : Value -> Json} {option : Option Value}
    (shows : ShowsSlot slot (option.map form))
    (sure : forall value, option = some value -> Sure read (form value) value)
    (notNull : forall value, (form value).isNull = false) :
    slot.orElse? none (orNull? read) = some option := by
  cases option with
  | none => exact shows.orElse?_missing
  | some value => exact shows.orElse? ((sure value rfl).orNull? (notNull value))

theorem ShowsSlot.orMissing? {default : Value} (shows : ShowsSlot slot (some value))
    (sure : Sure read value result) : slot.orMissing? default read = some result := by
  cases shows with
  | given shown => exact sure _ shown

theorem ShowsSlot.orMissing?_missing {default : Value} (shows : ShowsSlot slot none) :
    slot.orMissing? default read = some default := by
  cases shows
  rfl

theorem ShowsSlot.orMissing?_orNull? {form : Value -> Json} {option : Option Value}
    (shows : ShowsSlot slot (option.map form))
    (sure : forall value, option = some value -> Sure read (form value) value)
    (notNull : forall value, (form value).isNull = false) :
    slot.orMissing? none (orNull? read) = some option := by
  cases option with
  | none => exact shows.orMissing?_missing
  | some value => exact shows.orMissing? ((sure value rfl).orNull? (notNull value))

end Slots

/-! ## Where values come from -/

section

variable {Value : Type} {read : Datum -> Option Value} {slot : Slot} {value : Value}

theorem Slot.exists_of_required? (given : slot.required? read = some value) :
    Exists fun datum => read datum = some value := by
  cases slot with
  | given datum => exact ⟨datum, given⟩
  | missing | cut => cases given

theorem Slot.eq_default_of_orElse? {default : Value}
    (given : slot.orElse? default read = some value) :
    value = default ∨ Exists fun datum => read datum = some value := by
  cases slot with
  | given datum => exact .inr ⟨datum, given⟩
  | missing | cut => exact .inl (Option.some.inj given).symm

/-- Every value of a list that was read is read from an item. -/
theorem exists_of_mem_mapM {items : List Datum} :
    forall {values : List Value}, items.mapM read = some values ->
      forall value, value ∈ values -> Exists fun item => read item = some value := by
  induction items with
  | nil =>
      intro values given value listed
      cases given
      cases listed
  | cons item rest ih =>
      intro values given value listed
      rw [List.mapM_cons] at given
      rcases Option.bind_eq_some_iff.mp given with ⟨first, readFirst, behindFirst⟩
      rcases Option.bind_eq_some_iff.mp behindFirst with ⟨others, readOthers, same⟩
      cases same
      rcases List.mem_cons.mp listed with here | later
      · exact ⟨item, here ▸ readFirst⟩
      · exact ih readOthers value later

end

end Datum
end Emend
