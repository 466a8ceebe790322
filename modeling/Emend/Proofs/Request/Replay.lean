import Mathlib
import Emend.Proofs.Datum.Text
import Emend.Proofs.Request.Form
import Emend.Proofs.Result

namespace Emend

/-!
# Requests are replayed

A request can be kept in a file: what is read back builds the same statement or fails with
the same fault.  The request itself need not come back, but all that it may lose are values
that are null, and no call tells those from missing ones.

What a request builds can be told entry by entry.  None of its entries looks at the statement
that it is replayed on, so each may be replayed alone, and the operations are then put
together in order.  The request fails with the first fault that is met on the way, first in the
entries, then in the sort expressions and then in the limit.
-/

/-- The statement with further operations behind its own. -/
def Statement.append (statement : Statement) (added : List Operation) : Statement :=
  { statement with operations := statement.operations ++ added }

namespace Request

/-! ## Entries alone -/

/-- An entry replayed alone, on the empty statement. -/
def Entry.alone (entry : Entry) : Except Fault Statement :=
  Statement.empty.perform entry.call

/-- No entry looks at the statement that it is replayed on. -/
theorem perform_call (statement : Statement) (entry : Entry) :
    statement.perform entry.call = entry.call.operations.map statement.append := by
  cases entry with
  | patch document => cases document <;> rfl
  | merge document => cases document <;> rfl
  | set | change | unset | arrayInsert | arrayAppend | arrayDelete => rfl

theorem perform_call_eq_alone (statement : Statement) (entry : Entry) :
    statement.perform entry.call =
      entry.alone.map fun replayed => statement.append replayed.operations := by
  rw [Entry.alone, perform_call, perform_call]
  cases entry.call.operations <;> rfl

theorem foldlM_entries (entries : List Entry) :
    forall statement : Statement, (entries.map Entry.call).foldlM Statement.perform statement =
      (entries.mapM Entry.alone).map fun replayed =>
        statement.append (replayed.flatMap Statement.operations) := by
  induction entries with
  | nil =>
      intro statement
      have same : statement.append [] = statement := by
        rw [Statement.append, List.append_nil]
      exact congrArg Except.ok same.symm
  | cons entry rest ih =>
      intro statement
      rw [List.map_cons, List.foldlM_cons, perform_call_eq_alone, List.mapM_cons]
      cases entry.alone with
      | error fault => rfl
      | ok first =>
          change (rest.map Entry.call).foldlM Statement.perform _ = _
          rw [ih]
          cases rest.mapM Entry.alone with
          | error fault => rfl
          | ok others =>
              have together : (statement.append first.operations).append
                    (others.flatMap Statement.operations) =
                  statement.append ((first :: others).flatMap Statement.operations) := by
                simp only [Statement.append, List.flatMap_cons, List.append_assoc]
              exact congrArg Except.ok together

/-! ## Whole requests -/

/-- The sort expressions of a request replayed alone. -/
def sortAlone (request : Request) : Except Fault Statement :=
  Statement.empty.perform (.sort request.sort)

/-- The limit of a request replayed alone, if it has one. -/
def limitAlone (request : Request) : Except Fault Statement :=
  request.limit.elim (.ok Statement.empty) fun rows => Statement.empty.perform (.limit rows)

theorem foldlM_collection (request : Request) :
    (request.collection.toList.map Statement.Call.collection).foldlM Statement.perform
      Statement.empty = .ok { Statement.empty with collection := request.collection } := by
  cases request.collection <;> rfl

/-- Replaying no sort expressions is not replaying them. -/
theorem foldlM_sort (request : Request) {statement : Statement} (unsorted : statement.sort = []) :
    (if request.sort.isEmpty then [] else [Statement.Call.sort request.sort]).foldlM
        Statement.perform statement =
      request.sortAlone.map fun sorted => { statement with sort := sorted.sort } := by
  rw [sortAlone]
  cases request.sort with
  | nil =>
      rcases statement with ⟨operations, sort, limit, collection⟩
      cases unsorted
      rfl
  | cons expression rest =>
      rw [List.isEmpty_cons, if_neg Bool.false_ne_true, List.foldlM_cons, Statement.perform,
        Statement.perform]
      cases (expression :: rest).mapM Statement.checkSort <;> rfl

theorem foldlM_limit (request : Request) {statement : Statement}
    (unlimited : statement.limit = none) :
    (request.limit.toList.map Statement.Call.limit).foldlM Statement.perform statement =
      request.limitAlone.map fun limited => { statement with limit := limited.limit } := by
  rw [limitAlone]
  cases request.limit with
  | none =>
      rcases statement with ⟨operations, sort, limit, collection⟩
      cases unlimited
      rfl
  | some rows =>
      rw [Option.elim, Option.toList_some, List.map_singleton, List.foldlM_cons, Statement.perform,
        Statement.perform]
      split <;> rfl

/-- The parts of a request are replayed apart from each other. -/
theorem toStatement_eq (request : Request) :
    request.toStatement = (do
      let replayed ← request.operations.mapM Entry.alone
      let sorted ← request.sortAlone
      let limited ← request.limitAlone
      pure ⟨replayed.flatMap Statement.operations, sorted.sort, limited.limit,
        request.collection⟩) := by
  rw [toStatement, calls, List.foldlM_append, List.foldlM_append, List.foldlM_append,
    foldlM_collection]
  change (((request.operations.map Entry.call).foldlM Statement.perform _ >>= _) >>= _) = _
  rw [foldlM_entries]
  cases request.operations.mapM Entry.alone with
  | error fault => rfl
  | ok replayed =>
      let built := Statement.append { Statement.empty with collection := request.collection }
        (replayed.flatMap Statement.operations)
      change ((if request.sort.isEmpty then [] else [Statement.Call.sort request.sort]).foldlM
          Statement.perform built >>= fun statement =>
            (request.limit.toList.map Statement.Call.limit).foldlM Statement.perform statement) =
        request.sortAlone >>= fun sorted => request.limitAlone >>= fun limited => pure _
      rw [@foldlM_sort request built rfl]
      cases request.sortAlone with
      | error fault => rfl
      | ok sorted =>
          change (request.limit.toList.map Statement.Call.limit).foldlM Statement.perform
            { built with sort := sorted.sort } = request.limitAlone >>= fun limited => pure _
          rw [@foldlM_limit request { built with sort := sorted.sort } rfl]
          cases request.limitAlone <;> rfl

theorem toStatement_eq_ok_iff {request : Request} {statement : Statement} :
    request.toStatement = .ok statement ↔
      Exists fun replayed => Exists fun sorted => Exists fun limited =>
        request.operations.mapM Entry.alone = .ok replayed ∧ request.sortAlone = .ok sorted ∧
        request.limitAlone = .ok limited ∧
        statement = ⟨replayed.flatMap Statement.operations, sorted.sort, limited.limit,
          request.collection⟩ := by
  rw [toStatement_eq]
  constructor
  · intro built
    rcases Result.exists_of_bind_eq_ok built with ⟨replayed, entries, behindEntries⟩
    rcases Result.exists_of_bind_eq_ok behindEntries with ⟨sorted, sort, behindSort⟩
    rcases Result.exists_of_bind_eq_ok behindSort with ⟨limited, limit, same⟩
    exact ⟨replayed, sorted, limited, entries, sort, limit, (Except.ok.inj same).symm⟩
  · rintro ⟨replayed, sorted, limited, entries, sort, limit, rfl⟩
    rw [entries, sort, limit]
    rfl

/-- A request is refused for the first fault of its entries, or else for the one of its sort
expressions, or else for the one of its limit. -/
inductive Refused (request : Request) : Fault -> Prop where
  | entry {fault : Fault} (first : Result.FirstFault Entry.alone request.operations fault) :
      Refused request fault
  | sort {fault : Fault}
      (entries : forall entry, entry ∈ request.operations ->
        Exists fun replayed => entry.alone = .ok replayed)
      (failed : request.sortAlone = .error fault) : Refused request fault
  | limit {fault : Fault}
      (entries : forall entry, entry ∈ request.operations ->
        Exists fun replayed => entry.alone = .ok replayed)
      (sort : Exists fun sorted => request.sortAlone = .ok sorted)
      (failed : request.limitAlone = .error fault) : Refused request fault

theorem toStatement_eq_error_iff {request : Request} {fault : Fault} :
    request.toStatement = .error fault ↔ request.Refused fault := by
  rw [toStatement_eq]
  constructor
  · intro failed
    cases entries : request.operations.mapM Entry.alone with
    | error refusal =>
        rw [entries] at failed
        cases failed
        exact .entry (Result.mapM_eq_error_iff.mp entries)
    | ok replayed =>
        have passed := Result.exists_mapM_eq_ok_iff.mp ⟨replayed, entries⟩
        rw [entries] at failed
        cases sort : request.sortAlone with
        | error refusal =>
            rw [sort] at failed
            cases failed
            exact .sort passed sort
        | ok sorted =>
            rw [sort] at failed
            exact .limit passed ⟨sorted, sort⟩ (Result.eq_error_of_bind_pure failed)
  · intro refused
    cases refused with
    | entry first =>
        rw [Result.mapM_eq_error_iff.mpr first]
        rfl
    | sort passed failed =>
        rcases Result.exists_mapM_eq_ok_iff.mpr passed with ⟨replayed, entries⟩
        rw [entries, failed]
        rfl
    | limit passed sort failed =>
        rcases Result.exists_mapM_eq_ok_iff.mpr passed with ⟨replayed, entries⟩
        rcases sort with ⟨sorted, sort⟩
        rw [entries, sort, failed]
        rfl

/-! ## Requests in files -/

/-- No call tells a value that is null from a missing one. -/
theorem payload_receivedValue (value : Option Json) :
    payload (Entry.receivedValue value) = payload value := by
  cases value with
  | none => rfl
  | some found => cases found <;> rfl

theorem call_received (entry : Entry) : entry.received.call = entry.call := by
  cases entry with
  | set path value => exact congrArg (Statement.Call.set path) (payload_receivedValue value)
  | change path value => exact congrArg (Statement.Call.change path) (payload_receivedValue value)
  | arrayInsert path value =>
      exact congrArg (Statement.Call.arrayInsert path) (payload_receivedValue value)
  | arrayAppend path value =>
      exact congrArg (Statement.Call.arrayAppend path) (payload_receivedValue value)
  | unset | patch | merge | arrayDelete => rfl

theorem toStatement_received (request : Request) :
    request.received.toStatement = request.toStatement := by
  have same : request.received.operations.map Entry.call = request.operations.map Entry.call := by
    rw [received, List.map_map]
    exact List.map_congr_left fun entry _ => call_received entry
  rw [toStatement, toStatement, calls, calls, same]
  rfl

/-- The form gives the request, as a value and also as an indented text, unless it is nested
deeper than readers of texts go. -/
def GivenBy (request : Request) (form : Json) : Prop :=
  ofForm? (Datum.ofJson form) = some request ∧
    (form.nesting ≤ Datum.nestingLimit -> ofText? form.indented = some request)

theorem givenBy_of_ofForm? {request : Request} {form : Json}
    (read : ofForm? (Datum.ofJson form) = some request) : request.GivenBy form := by
  refine ⟨read, fun reached => ?_⟩
  rw [ofText?, Datum.ofText?_indented_of_nesting_le reached, Option.bind_some, read]

/-- What is read of a written request, with the members of the form as they were written or in
order, differs from it in missing values for null ones at most, and it builds the same
statement or fails with the same fault.  A request builds a statement exactly if all of its
parts do so alone.  Its operations are those of its entries alone, one after another, and
otherwise its fault is the first one. -/
theorem replay_read_back :
    (forall request : Request, request.WellFormed ->
      request.received.GivenBy request.toForm ∧ request.received.GivenBy request.toForm.sorted ∧
      request.received.toStatement = request.toStatement) ∧
    forall request : Request,
      ((Exists fun statement => request.toStatement = .ok statement) ↔
        (forall entry, entry ∈ request.operations ->
          Exists fun replayed => entry.alone = .ok replayed) ∧
        (Exists fun sorted => request.sortAlone = .ok sorted) ∧
        Exists fun limited => request.limitAlone = .ok limited) ∧
      (forall statement, request.toStatement = .ok statement ->
        Exists fun replayed => Exists fun sorted => Exists fun limited =>
          List.Forall₂ (fun entry alone => Entry.alone entry = .ok alone) request.operations
            replayed ∧
          request.sortAlone = .ok sorted ∧ request.limitAlone = .ok limited ∧
          statement = ⟨replayed.flatMap Statement.operations, sorted.sort, limited.limit,
            request.collection⟩) ∧
      forall fault, request.toStatement = .error fault ↔ request.Refused fault := by
  refine ⟨fun request wellFormed => ⟨?_, ?_, toStatement_received request⟩,
    fun request => ⟨⟨?_, ?_⟩, ?_, fun fault => toStatement_eq_error_iff⟩⟩
  · exact givenBy_of_ofForm? (sure_ofForm? wellFormed _ (Datum.shows_ofJson _))
  · exact givenBy_of_ofForm?
      (sure_ofForm? wellFormed _ (Datum.shows_sorted (namesDistinct_toForm wellFormed)))
  · rintro ⟨statement, built⟩
    rcases toStatement_eq_ok_iff.mp built with ⟨replayed, sorted, limited, entries, sort, limit, _⟩
    exact ⟨Result.exists_mapM_eq_ok_iff.mp ⟨replayed, entries⟩, ⟨sorted, sort⟩, limited, limit⟩
  · rintro ⟨passed, ⟨sorted, sort⟩, limited, limit⟩
    rcases Result.exists_mapM_eq_ok_iff.mpr passed with ⟨replayed, entries⟩
    exact ⟨_, toStatement_eq_ok_iff.mpr
      ⟨replayed, sorted, limited, entries, sort, limit, rfl⟩⟩
  · intro statement built
    rcases toStatement_eq_ok_iff.mp built with
      ⟨replayed, sorted, limited, entries, sort, limit, same⟩
    exact ⟨replayed, sorted, limited, Result.mapM_eq_ok_iff_forall₂.mp entries, sort, limit, same⟩

/-- A request with a null value, an entry without operations and a patch as a text. -/
def mixed : Request :=
  ⟨some "", [.set "a[0]" (some .null), .unset [], .patch (.string "\x7b\"b\": null\x7d"),
    .arrayAppend "t" (some (.object [("k", .null)]))], [" n desc "], some 3⟩

/-- A request with three faults. -/
def faulty : Request :=
  ⟨none, [.set "a" none, .unset ["b", ""], .merge .null], ["n up"], some (-1)⟩

theorem replay_mixed :
    mixed.WellFormed ∧ ofForm? (Datum.ofJson mixed.toForm) = some mixed.received ∧
    mixed.received.operations ≠ mixed.operations ∧
    mixed.received.toStatement =
      .ok ⟨[.unset ⟨[.field "a", .index 0]⟩, .patch [("b", .null)],
        .arrayAppend ⟨[.field "t"]⟩ (.ofObject [("k", .null)])], ["n desc"], some 3, some ""⟩ ∧
    faulty.toStatement = .error (.emptyPath (.operation .unset)) := by
  have passed : Entry.alone (.set "a" none) = .ok ⟨[.unset ⟨[.field "a"]⟩], [], none, none⟩ := by
    cbv
  have failed : Entry.alone (.unset ["b", ""]) = .error (.emptyPath (.operation .unset)) := by
    cbv
  have wellFormed : mixed.WellFormed := by
    intro entry listed
    simp only [mixed, List.mem_cons, List.not_mem_nil, or_false] at listed
    rcases listed with rfl | rfl | rfl | rfl
    · rintro found ⟨⟩
      trivial
    · trivial
    · trivial
    · rintro found ⟨⟩
      decide
  have changed : mixed.received.operations ≠ mixed.operations := by
    rintro ⟨⟩
  have built : mixed.toStatement =
      .ok ⟨[.unset ⟨[.field "a", .index 0]⟩, .patch [("b", .null)],
        .arrayAppend ⟨[.field "t"]⟩ (.ofObject [("k", .null)])], ["n desc"], some 3, some ""⟩ := by
    cbv
  have first :
      Result.FirstFault Entry.alone faulty.operations (.emptyPath (.operation .unset)) := by
    refine ⟨[.set "a" none], .unset ["b", ""], [.merge .null], rfl, ?_, failed⟩
    intro earlier listed
    rcases List.mem_singleton.mp listed with rfl
    exact ⟨_, passed⟩
  rcases replay_read_back.1 mixed wellFormed with ⟨given, _, same⟩
  exact ⟨wellFormed, given.1, changed, same.trans built,
    ((replay_read_back.2 faulty).2.2 _).mpr (.entry first)⟩

end Request
end Emend
