import Mathlib.Data.List.Forall2

namespace Emend

/-!
# Laws of results

What a chain of steps that may each fail tells when it has succeeded.
-/

namespace Result

universe u

variable {Fault Value Next : Type u}

theorem exists_of_bind_eq_ok {first : Except Fault Value} {further : Value -> Except Fault Next}
    {result : Next} (succeeded : first >>= further = .ok result) :
    Exists fun value => first = .ok value ∧ further value = .ok result := by
  cases first with
  | error fault => cases succeeded
  | ok value => exact ⟨value, rfl, succeeded⟩

/-- A chain whose last step cannot fail fails where its first step does. -/
theorem eq_error_of_bind_pure {first : Except Fault Value} {make : Value -> Next} {fault : Fault}
    (failed : (first >>= fun value => pure (make value)) = .error fault) :
    first = .error fault := by
  cases first with
  | error other =>
      cases failed
      rfl
  | ok value => cases failed

theorem exists_of_map_eq_ok {source : Except Fault Value} {change : Value -> Next} {result : Next}
    (succeeded : source.map change = .ok result) :
    Exists fun value => source = .ok value ∧ change value = result := by
  cases source with
  | error fault => cases succeeded
  | ok value => exact ⟨value, rfl, Except.ok.inj succeeded⟩

theorem mapM_cons_eq_ok_iff {step : Value -> Except Fault Next} {item : Value} {rest : List Value}
    {results : List Next} :
    (item :: rest).mapM step = .ok results ↔ Exists fun found => Exists fun others =>
      step item = .ok found ∧ rest.mapM step = .ok others ∧ results = found :: others := by
  rw [List.mapM_cons]
  constructor
  · intro succeeded
    rcases exists_of_bind_eq_ok succeeded with ⟨found, here, succeededThen⟩
    rcases exists_of_bind_eq_ok succeededThen with ⟨others, there, made⟩
    cases made
    exact ⟨found, others, here, there, rfl⟩
  · rintro ⟨found, others, here, there, rfl⟩
    rw [here]
    change (rest.mapM step >>= fun others => pure (found :: others)) = _
    rw [there]
    rfl

/-- Each value that a pass over a list gives is given for an item of the list. -/
theorem exists_of_mem_mapM {step : Value -> Except Fault Next} {items : List Value} :
    forall {results : List Next}, items.mapM step = .ok results ->
      forall result, result ∈ results -> Exists fun item => item ∈ items ∧ step item = .ok result := by
  induction items with
  | nil =>
      intro results succeeded result listed
      cases succeeded
      cases listed
  | cons item rest ih =>
      intro results succeeded result listed
      rcases mapM_cons_eq_ok_iff.mp succeeded with ⟨found, others, here, there, rfl⟩
      rcases List.mem_cons.mp listed with same | later
      · exact ⟨item, List.mem_cons_self, same ▸ here⟩
      · rcases ih there result later with ⟨source, inRest, given⟩
        exact ⟨source, List.mem_cons_of_mem _ inRest, given⟩

section Passes

variable {Cause Item Found : Type}

theorem forM_cons (check : Item -> Except Cause Unit) (item : Item) (rest : List Item) :
    (item :: rest).forM check = check item >>= fun _ => rest.forM check :=
  rfl

/-- A pass that only checks is the pass that keeps the results, without them. -/
theorem forM_discard (step : Item -> Except Cause Found) (items : List Item) :
    (items.forM fun item => step item >>= fun _ => pure ()) =
      items.mapM step >>= fun _ => pure () := by
  induction items with
  | nil => rfl
  | cons item rest ih =>
      rw [forM_cons, ih, List.mapM_cons]
      cases step item with
      | error fault => rfl
      | ok found => cases rest.mapM step <;> rfl

/-- Where a pass that only checks succeeds, so does the pass that keeps the results. -/
theorem exists_mapM_of_forM {step : Item -> Except Cause Found} {items : List Item}
    (passed : (items.forM fun item => step item >>= fun _ => pure ()) = .ok ()) :
    Exists fun results => items.mapM step = .ok results := by
  rw [forM_discard] at passed
  rcases exists_of_bind_eq_ok passed with ⟨results, made, _⟩
  exact ⟨results, made⟩

/-- A pass that checks every item succeeds exactly if each item passes the check. -/
theorem forM_eq_ok_iff {check : Item -> Except Cause Unit} {items : List Item} :
    items.forM check = .ok () ↔ forall item, item ∈ items -> check item = .ok () := by
  induction items with
  | nil => exact ⟨fun _ item listed => False.elim (List.not_mem_nil listed), fun _ => rfl⟩
  | cons first rest ih =>
      rw [forM_cons, List.forall_mem_cons]
      constructor
      · intro passed
        rcases exists_of_bind_eq_ok passed with ⟨_, here, later⟩
        exact ⟨here, ih.mp later⟩
      · rintro ⟨here, later⟩
        rw [here]
        exact ih.mpr later

/-- A pass gives a value for each item, in the order of the items. -/
theorem mapM_eq_ok_iff_forall₂ {step : Item -> Except Cause Found} {items : List Item} :
    forall {results : List Found}, items.mapM step = .ok results ↔
      List.Forall₂ (fun item found => step item = .ok found) items results := by
  induction items with
  | nil =>
      intro results
      rw [List.forall₂_nil_left_iff, List.mapM_nil]
      exact ⟨fun made => (Except.ok.inj made).symm, fun none => congrArg Except.ok none.symm⟩
  | cons item rest ih =>
      intro results
      rw [mapM_cons_eq_ok_iff, List.forall₂_cons_left_iff]
      simp only [ih]

theorem exists_mapM_eq_ok_iff {step : Item -> Except Cause Found} {items : List Item} :
    (Exists fun results => items.mapM step = .ok results) ↔
      forall item, item ∈ items -> Exists fun found => step item = .ok found := by
  induction items with
  | nil => exact ⟨fun _ item listed => False.elim (List.not_mem_nil listed), fun _ => ⟨[], rfl⟩⟩
  | cons item rest ih =>
      rw [List.forall_mem_cons, ← ih]
      simp only [mapM_cons_eq_ok_iff]
      constructor
      · rintro ⟨_, found, others, here, there, rfl⟩
        exact ⟨⟨found, here⟩, others, there⟩
      · rintro ⟨⟨found, here⟩, others, there⟩
        exact ⟨found :: others, found, others, here, there, rfl⟩

/-- A pass can be made in two, if its step can. -/
theorem mapM_eq_ok_iff_of_two {Middle : Type} {step : Item -> Except Cause Found}
    {first : Item -> Except Cause Middle} {second : Middle -> Except Cause Found}
    (inTwo : forall item found, step item = .ok found ↔
      Exists fun middle => first item = .ok middle ∧ second middle = .ok found)
    (items : List Item) :
    forall results, items.mapM step = .ok results ↔
      Exists fun middles => items.mapM first = .ok middles ∧ middles.mapM second = .ok results := by
  induction items with
  | nil =>
      intro results
      constructor
      · exact fun made => ⟨[], rfl, made⟩
      · rintro ⟨middles, none, made⟩
        cases none
        exact made
  | cons item rest ih =>
      intro results
      constructor
      · intro made
        rcases mapM_cons_eq_ok_iff.mp made with ⟨found, others, here, there, rfl⟩
        rcases (inTwo item found).mp here with ⟨middle, before, behind⟩
        rcases (ih others).mp there with ⟨middles, befores, behinds⟩
        exact ⟨middle :: middles, mapM_cons_eq_ok_iff.mpr ⟨middle, middles, before, befores, rfl⟩,
          mapM_cons_eq_ok_iff.mpr ⟨found, others, behind, behinds, rfl⟩⟩
      · rintro ⟨all, before, behind⟩
        rcases mapM_cons_eq_ok_iff.mp before with ⟨middle, middles, beforeHere, beforeThere, rfl⟩
        rcases mapM_cons_eq_ok_iff.mp behind with ⟨found, others, behindHere, behindThere, rfl⟩
        exact mapM_cons_eq_ok_iff.mpr ⟨found, others,
          (inTwo item found).mpr ⟨middle, beforeHere, behindHere⟩,
          (ih others).mpr ⟨middles, beforeThere, behindThere⟩, rfl⟩

/-- A fault is the one of the first item that a step refuses. -/
def FirstFault (step : Item -> Except Cause Found) (items : List Item) (fault : Cause) : Prop :=
  Exists fun before => Exists fun item => Exists fun behind =>
    items = before ++ item :: behind ∧
    (forall earlier, earlier ∈ before -> Exists fun found => step earlier = .ok found) ∧
    step item = .error fault

theorem not_firstFault_nil (step : Item -> Except Cause Found) (fault : Cause) :
    ¬ FirstFault step [] fault := by
  rintro ⟨before, item, behind, together, _⟩
  exact List.append_ne_nil_of_right_ne_nil before (List.cons_ne_nil item behind) together.symm

theorem firstFault_of_error {step : Item -> Except Cause Found} {item : Item} {refusal : Cause}
    (refused : step item = .error refusal) (rest : List Item) (fault : Cause) :
    FirstFault step (item :: rest) fault ↔ refusal = fault := by
  constructor
  · rintro ⟨before, first, behind, together, passed, failed⟩
    cases before with
    | nil =>
        rcases List.cons.inj together with ⟨rfl, _⟩
        exact Except.error.inj (refused.symm.trans failed)
    | cons earlier others =>
        rcases List.cons.inj together with ⟨rfl, _⟩
        rcases passed item List.mem_cons_self with ⟨found, accepted⟩
        rw [refused] at accepted
        cases accepted
  · rintro rfl
    exact ⟨[], item, rest, rfl, fun _ listed => False.elim (List.not_mem_nil listed), refused⟩

theorem firstFault_of_ok {step : Item -> Except Cause Found} {item : Item} {found : Found}
    (accepted : step item = .ok found) (rest : List Item) (fault : Cause) :
    FirstFault step (item :: rest) fault ↔ FirstFault step rest fault := by
  constructor
  · rintro ⟨before, first, behind, together, passed, failed⟩
    cases before with
    | nil =>
        rcases List.cons.inj together with ⟨rfl, _⟩
        rw [accepted] at failed
        cases failed
    | cons earlier others =>
        exact ⟨others, first, behind, (List.cons.inj together).2,
          fun other listed => passed other (List.mem_cons_of_mem _ listed), failed⟩
  · rintro ⟨before, first, behind, rfl, passed, failed⟩
    exact ⟨item :: before, first, behind, rfl,
      List.forall_mem_cons.mpr ⟨⟨found, accepted⟩, passed⟩, failed⟩

/-- A pass over a list fails with the fault of the first item that is refused. -/
theorem mapM_eq_error_iff {step : Item -> Except Cause Found} {items : List Item} {fault : Cause} :
    items.mapM step = .error fault ↔ FirstFault step items fault := by
  induction items with
  | nil => exact ⟨fun failed => (by cases failed), fun first => (not_firstFault_nil _ _ first).elim⟩
  | cons item rest ih =>
      rw [List.mapM_cons]
      cases verdict : step item with
      | error refusal =>
          rw [firstFault_of_error verdict]
          exact Except.error.injEq refusal fault ▸ Iff.rfl
      | ok found =>
          rw [firstFault_of_ok verdict, ← ih]
          cases rest.mapM step with
          | error refusal => exact Iff.rfl
          | ok results => exact ⟨fun failed => (by cases failed), fun failed => (by cases failed)⟩

theorem forM_eq_error_iff {check : Item -> Except Cause Unit} {items : List Item} {fault : Cause} :
    items.forM check = .error fault ↔ FirstFault check items fault := by
  have onlyChecks : check = fun item => check item >>= fun _ => pure () := by
    funext item
    cases check item <;> rfl
  have asPass : items.forM check = items.mapM check >>= fun _ => pure () :=
    (congrArg items.forM onlyChecks).trans (forM_discard check items)
  rw [asPass, ← mapM_eq_error_iff]
  constructor
  · exact eq_error_of_bind_pure
  · intro failed
    rw [failed]
    rfl

end Passes

end Result
end Emend
