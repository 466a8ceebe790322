import Emend.Json.Members

namespace Emend
namespace Members

/-!
# Laws of members

Looking a name up is the only question that most of the library asks of
members.  The laws here say what each operation does to every look-up.  They
hold of all lists of named values, so a store or a document needs no proof of
its order to be read back after a change.

Order matters only for the operations themselves: they keep it, and in sorted
members a name stands once.
-/

variable {Value : Type}

theorem ne_of_compare_eq_lt {name other : String} (before : compare name other = .lt) :
    name ≠ other := by
  intro same
  rw [Std.compare_eq_iff_eq.mpr same] at before
  cases before

/-! ## Looking up -/

@[simp]
theorem get?_nil (name : String) : get? ([] : Members Value) name = none := rfl

@[simp]
theorem get?_cons_same (name : String) (value : Value) (rest : Members Value) :
    get? ((name, value) :: rest) name = some value := by
  simp only [get?, List.lookup_cons, beq_self_eq_true]

theorem get?_cons_of_ne {name other : String} (different : name ≠ other) (value : Value)
    (rest : Members Value) : get? ((other, value) :: rest) name = get? rest name := by
  simp only [get?, List.lookup_cons, beq_eq_false_iff_ne.mpr different]

theorem mem_of_get?_eq_some {members : Members Value} {name : String} {value : Value}
    (found : get? members name = some value) : (name, value) ∈ members := by
  induction members with
  | nil => cases found
  | cons member rest ih =>
      rcases member with ⟨other, old⟩
      by_cases same : name = other
      · subst other
        rw [get?_cons_same] at found
        cases found
        exact List.mem_cons_self
      · rw [get?_cons_of_ne same] at found
        exact List.mem_cons_of_mem _ (ih found)

@[simp]
theorem get?_insert_same (name : String) (value : Value) (members : Members Value) :
    get? (insert name value members) name = some value := by
  induction members with
  | nil => exact get?_cons_same name value []
  | cons member rest ih =>
      rcases member with ⟨other, old⟩
      simp only [insert]
      cases ordering : compare name other with
      | lt => exact get?_cons_same name value _
      | eq => exact get?_cons_same name value _
      | gt =>
          have different := (ne_of_compare_eq_lt (Std.OrientedCmp.lt_of_gt ordering)).symm
          simp only
          rw [get?_cons_of_ne different]
          exact ih

theorem get?_insert_of_ne {name other : String} (different : name ≠ other) (value : Value)
    (members : Members Value) : get? (insert other value members) name = get? members name := by
  induction members with
  | nil => exact get?_cons_of_ne different value []
  | cons member rest ih =>
      rcases member with ⟨first, old⟩
      simp only [insert]
      cases ordering : compare other first with
      | lt => exact get?_cons_of_ne different value _
      | eq =>
          have same : other = first := Std.compare_eq_iff_eq.mp ordering
          subst first
          simp only
          rw [get?_cons_of_ne different, get?_cons_of_ne different]
      | gt =>
          simp only
          by_cases same : name = first
          · subst first
            rw [get?_cons_same, get?_cons_same]
          · rw [get?_cons_of_ne same, get?_cons_of_ne same]
            exact ih

theorem get?_insert (name other : String) (value : Value) (members : Members Value) :
    get? (insert other value members) name =
      if name = other then some value else get? members name := by
  by_cases same : name = other
  · subst other
    rw [if_pos rfl, get?_insert_same]
  · rw [if_neg same, get?_insert_of_ne same]

@[simp]
theorem get?_erase_same (name : String) (members : Members Value) :
    get? (erase name members) name = none := by
  apply List.lookup_eq_none_iff.mpr
  intro member listed
  have kept := (List.mem_filter.mp listed).2
  exact bne_iff_ne.mpr (bne_iff_ne.mp kept).symm

theorem get?_erase_of_ne {name other : String} (different : name ≠ other)
    (members : Members Value) : get? (erase other members) name = get? members name := by
  induction members with
  | nil => rfl
  | cons member rest ih =>
      rcases member with ⟨first, old⟩
      by_cases removed : first = other
      · subst first
        rw [get?_cons_of_ne different]
        simpa only [erase, List.filter_cons, bne_self_eq_false, Bool.false_eq_true, if_false] using ih
      · have kept : erase other ((first, old) :: rest) = (first, old) :: erase other rest := by
          simp only [erase, List.filter_cons, bne_iff_ne.mpr removed, if_true]
        rw [kept]
        by_cases same : name = first
        · subst first
          rw [get?_cons_same, get?_cons_same]
        · rw [get?_cons_of_ne same, get?_cons_of_ne same]
          exact ih

/-! ## Order -/

instance (members : Members Value) : Decidable (Sorted members) :=
  inferInstanceAs (Decidable (members.Pairwise fun left right => compare left.1 right.1 = .lt))

theorem sorted_nil : Sorted ([] : Members Value) := List.Pairwise.nil

/-- The first name of sorted members does not come again. -/
theorem get?_tail_of_sorted {name : String} {value : Value} {rest : Members Value}
    (sorted : Sorted ((name, value) :: rest)) : get? rest name = none := by
  apply List.lookup_eq_none_iff.mpr
  intro member listed
  have later := (List.pairwise_cons.mp sorted).1 member listed
  exact bne_iff_ne.mpr (ne_of_compare_eq_lt later)

theorem Sorted.nodup {members : Members Value} (sorted : Sorted members) :
    (members.map Prod.fst).Nodup := by
  rw [List.nodup_iff_pairwise_ne, List.pairwise_map]
  exact List.Pairwise.imp ne_of_compare_eq_lt sorted

theorem nodup_of_names {members : Members Value} (distinct : (members.map Prod.fst).Nodup) :
    members.Nodup :=
  List.Pairwise.of_map Prod.fst (fun _ _ different same => different (congrArg Prod.fst same))
    distinct

theorem get?_eq_some_iff_of_nodup {members : Members Value}
    (distinct : (members.map Prod.fst).Nodup) {name : String} {value : Value} :
    get? members name = some value ↔ (name, value) ∈ members := by
  constructor
  · exact mem_of_get?_eq_some
  · intro listed
    induction members with
    | nil => cases listed
    | cons member rest ih =>
        rcases member with ⟨first, old⟩
        rcases List.nodup_cons.mp distinct with ⟨once, distinctRest⟩
        rcases List.mem_cons.mp listed with same | later
        · cases same
          exact get?_cons_same _ _ _
        · have different : name ≠ first := by
            intro same
            subst first
            exact once (List.mem_map.mpr ⟨_, later, rfl⟩)
          rw [get?_cons_of_ne different]
          exact ih distinctRest later

theorem get?_eq_some_iff_of_sorted {members : Members Value} (sorted : Sorted members)
    {name : String} {value : Value} : get? members name = some value ↔ (name, value) ∈ members :=
  get?_eq_some_iff_of_nodup sorted.nodup

/-- Where no name is repeated the order of the members is of no consequence for what is found. -/
theorem get?_of_perm {left right : Members Value} (reordered : left.Perm right)
    (distinct : (left.map Prod.fst).Nodup) (name : String) : get? left name = get? right name := by
  have distinctRight := (reordered.map Prod.fst).nodup_iff.mp distinct
  apply Option.ext
  intro value
  rw [get?_eq_some_iff_of_nodup distinct, get?_eq_some_iff_of_nodup distinctRight]
  exact reordered.mem_iff

theorem mem_insert {name : String} {value : Value} {members : Members Value}
    {member : String × Value} (listed : member ∈ insert name value members) :
    member = (name, value) ∨ member ∈ members := by
  induction members with
  | nil => exact Or.inl (List.mem_singleton.mp listed)
  | cons first rest ih =>
      rcases first with ⟨other, old⟩
      simp only [insert] at listed
      cases ordering : compare name other <;> rw [ordering] at listed
      · exact List.mem_cons.mp listed
      · rcases List.mem_cons.mp listed with same | later
        · exact Or.inl same
        · exact Or.inr (List.mem_cons_of_mem _ later)
      · rcases List.mem_cons.mp listed with same | later
        · exact Or.inr (List.mem_cons.mpr (Or.inl same))
        · rcases ih later with same | old
          · exact Or.inl same
          · exact Or.inr (List.mem_cons_of_mem _ old)

theorem Sorted.insert {members : Members Value} (sorted : Sorted members) (name : String)
    (value : Value) : Sorted (insert name value members) := by
  induction members with
  | nil => exact List.pairwise_singleton _ _
  | cons first rest ih =>
      rcases first with ⟨other, old⟩
      have parts := List.pairwise_cons.mp sorted
      simp only [Members.insert]
      cases ordering : compare name other with
      | lt =>
          apply List.pairwise_cons.mpr
          refine ⟨?_, sorted⟩
          intro member listed
          rcases List.mem_cons.mp listed with same | later
          · subst member
            exact ordering
          · exact Std.TransCmp.lt_trans ordering (parts.1 member later)
      | eq =>
          have same : name = other := Std.compare_eq_iff_eq.mp ordering
          subst other
          exact List.pairwise_cons.mpr parts
      | gt =>
          apply List.pairwise_cons.mpr
          refine ⟨?_, ih parts.2⟩
          intro member listed
          rcases mem_insert listed with same | later
          · subst member
            exact Std.OrientedCmp.lt_of_gt ordering
          · exact parts.1 member later

theorem Sorted.erase {members : Members Value} (sorted : Sorted members) (name : String) :
    Sorted (erase name members) :=
  List.Pairwise.filter _ sorted

/-! ## Equality -/

theorem get?_eq_none_of_lt {name first : String} {value : Value} {rest : Members Value}
    (sorted : Sorted ((first, value) :: rest)) (before : compare name first = .lt) :
    get? ((first, value) :: rest) name = none := by
  apply List.lookup_eq_none_iff.mpr
  intro member listed
  have behind : compare name member.1 = .lt := by
    rcases List.mem_cons.mp listed with same | later
    · rw [same]
      exact before
    · exact Std.TransCmp.lt_trans before ((List.pairwise_cons.mp sorted).1 member later)
  exact bne_iff_ne.mpr (ne_of_compare_eq_lt behind)

/-- Sorted members are determined by what is found under each name. -/
theorem eq_of_get?_eq {left : Members Value} :
    forall {right : Members Value}, Sorted left -> Sorted right ->
      (forall name, get? left name = get? right name) -> left = right := by
  induction left with
  | nil =>
      intro right _ _ same
      cases right with
      | nil => rfl
      | cons member rest =>
          have found := same member.1
          rw [get?_cons_same] at found
          cases found
  | cons member rest ih =>
      intro right sorted sortedRight same
      rcases member with ⟨name, value⟩
      cases right with
      | nil =>
          have found := same name
          rw [get?_cons_same] at found
          cases found
      | cons second others =>
          rcases second with ⟨other, old⟩
          have here := same name
          have there := same other
          rw [get?_cons_same] at here there
          cases ordering : compare name other with
          | lt =>
              rw [get?_eq_none_of_lt sortedRight ordering] at here
              cases here
          | gt =>
              rw [get?_eq_none_of_lt sorted (Std.OrientedCmp.lt_of_gt ordering)] at there
              cases there
          | eq =>
              have sameName : name = other := Std.compare_eq_iff_eq.mp ordering
              subst other
              rw [get?_cons_same] at here
              cases here
              have sameRest : rest = others := by
                apply ih (List.pairwise_cons.mp sorted).2 (List.pairwise_cons.mp sortedRight).2
                intro wanted
                by_cases first : wanted = name
                · rw [first, get?_tail_of_sorted sorted, get?_tail_of_sorted sortedRight]
                · have found := same wanted
                  rw [get?_cons_of_ne first, get?_cons_of_ne first] at found
                  exact found
              rw [sameRest]

/-- Collecting entries finds each name as the entries have it, in front of what was there. -/
theorem get?_foldl_insert {entries : List (String × Value)}
    (distinct : (entries.map Prod.fst).Nodup) (name : String) :
    forall members : Members Value,
      get? (entries.foldl (fun members entry => insert entry.1 entry.2 members) members) name =
        (get? entries name).or (get? members name) := by
  induction entries with
  | nil => exact fun _ => rfl
  | cons entry rest ih =>
      intro members
      rcases entry with ⟨first, value⟩
      rcases List.nodup_cons.mp distinct with ⟨once, distinctRest⟩
      rw [List.foldl_cons, ih distinctRest, get?_insert]
      by_cases same : name = first
      · subst first
        have absent : get? rest name = none := by
          apply Option.eq_none_iff_forall_ne_some.mpr
          intro other found
          exact once (List.mem_map.mpr ⟨_, mem_of_get?_eq_some found, rfl⟩)
        rw [if_pos rfl, absent, get?_cons_same]
        rfl
      · rw [if_neg same, get?_cons_of_ne same]

theorem sorted_foldl_insert (entries : List (String × Value)) :
    forall {members : Members Value}, Sorted members ->
      Sorted (entries.foldl (fun members entry => insert entry.1 entry.2 members) members) := by
  induction entries with
  | nil => exact fun sorted => sorted
  | cons entry rest ih => exact fun sorted => ih (sorted.insert entry.1 entry.2)

theorem sorted_ofList (entries : List (String × Value)) : Sorted (ofList entries) :=
  sorted_foldl_insert entries sorted_nil

theorem get?_ofList {entries : List (String × Value)} (distinct : (entries.map Prod.fst).Nodup)
    (name : String) : get? (ofList entries) name = get? entries name := by
  rw [ofList, get?_foldl_insert distinct, get?_nil, Option.or_none]

/-- Entries in whatever order are the sorted members that they make. -/
theorem ofList_of_perm {entries : List (String × Value)} {members : Members Value}
    (reordered : entries.Perm members) (sorted : Sorted members) : ofList entries = members := by
  have distinct := (reordered.map Prod.fst).nodup_iff.mpr sorted.nodup
  apply eq_of_get?_eq (sorted_ofList entries) sorted
  intro name
  rw [get?_ofList distinct, get?_of_perm reordered distinct]

/-- Collecting entries with different names only brings them into order. -/
theorem ofList_perm {entries : List (String × Value)} (distinct : (entries.map Prod.fst).Nodup) :
    (ofList entries).Perm entries := by
  apply (List.perm_ext_iff_of_nodup (nodup_of_names (sorted_ofList entries).nodup)
    (nodup_of_names distinct)).mpr
  intro member
  rw [← get?_eq_some_iff_of_sorted (sorted_ofList entries), get?_ofList distinct,
    get?_eq_some_iff_of_nodup distinct]

theorem get?_erase (name other : String) (members : Members Value) :
    get? (erase other members) name = if name = other then none else get? members name := by
  by_cases same : name = other
  · subst other
    rw [if_pos rfl, get?_erase_same]
  · rw [if_neg same, get?_erase_of_ne same]

section Again

variable {members : Members Value}

/-- A value that is put where it is already changes nothing. -/
theorem insert_of_get? (sorted : Sorted members) {name : String} {value : Value}
    (found : get? members name = some value) : insert name value members = members := by
  apply eq_of_get?_eq (sorted.insert name value) sorted
  intro wanted
  rw [get?_insert]
  split
  · next same => rw [same, found]
  · rfl

theorem erase_of_get? {name : String} (absent : get? members name = none) :
    erase name members = members := by
  apply List.filter_eq_self.mpr
  intro member listed
  exact bne_iff_ne.mpr (Ne.symm (bne_iff_ne.mp (List.lookup_eq_none_iff.mp absent member listed)))

theorem insert_insert (sorted : Sorted members) (name : String) (value new : Value) :
    insert name new (insert name value members) = insert name new members := by
  apply eq_of_get?_eq ((sorted.insert name value).insert name new) (sorted.insert name new)
  intro wanted
  rw [get?_insert, get?_insert, get?_insert]
  split <;> rfl

theorem insert_erase (sorted : Sorted members) (name : String) (new : Value) :
    insert name new (erase name members) = insert name new members := by
  apply eq_of_get?_eq ((sorted.erase name).insert name new) (sorted.insert name new)
  intro wanted
  rw [get?_insert, get?_insert, get?_erase]
  split <;> rfl

theorem erase_insert (sorted : Sorted members) (name : String) (value : Value) :
    erase name (insert name value members) = erase name members := by
  apply eq_of_get?_eq ((sorted.insert name value).erase name) (sorted.erase name)
  intro wanted
  rw [get?_erase, get?_erase, get?_insert]
  split <;> rfl

theorem erase_erase (name : String) : erase name (erase name members) = erase name members :=
  erase_of_get? (get?_erase_same name members)

end Again

end Members
end Emend
