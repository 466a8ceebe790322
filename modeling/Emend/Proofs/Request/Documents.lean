import Emend.Proofs.Datum.Record
import Emend.Proofs.Statement.Compile
import Emend.Request.Form

namespace Emend
namespace Request

/-!
# Requests bring documents

The values and the patches in a request that was read from a text are documents, in whatever
form the request came.  So are, then, the values in the update of the statement that it builds.
-/

/-! ## Entries -/

theorem wellFormed_payload {value : Option Json}
    (wellFormed : forall found, value = some found -> found.WellFormed) :
    (payload value).toJson.WellFormed := by
  cases value with
  | none => trivial
  | some found => exact Payload.wellFormed_ofJson (wellFormed found rfl)

theorem wellFormed_of_placeOfForm? {record : Datum} {path : String} {value : Option Json}
    (read : Entry.placeOfForm? record = some (path, value)) :
    (payload value).toJson.WellFormed := by
  apply wellFormed_payload
  intro found present
  rcases Option.bind_eq_some_iff.mp read with ⟨slots, _, fields⟩
  split at fields
  · rcases Option.bind_eq_some_iff.mp fields with ⟨_, _, behindPath⟩
    rcases Option.bind_eq_some_iff.mp behindPath with ⟨value, readValue, same⟩
    cases same
    rcases Datum.Slot.eq_default_of_orElse? readValue with absent | ⟨datum, given⟩
    · rw [absent] at present
      cases present
    · rw [Datum.orNull?.eq_def] at given
      split at given
      · cases given
        cases present
      · rcases Option.map_eq_some_iff.mp given with ⟨denoted, denotes, same⟩
        cases same.trans present
        exact Datum.wellFormed_of_toJson? _ found denotes
  · cases fields

theorem wellFormed_of_documentOfForm? {record : Datum} {document : Json}
    (read : Entry.documentOfForm? record = some document) : document.WellFormed := by
  rcases Option.bind_eq_some_iff.mp read with ⟨slots, _, fields⟩
  split at fields
  · rcases Datum.Slot.exists_of_required? fields with ⟨datum, given⟩
    exact Datum.wellFormed_of_toJson? datum document given
  · cases fields

theorem bringsDocument_patch {document : Json} (wellFormed : document.WellFormed) :
    (Entry.patch document).call.BringsDocument := by
  cases document with
  | string text => trivial
  | null | bool | number | array | object => exact wellFormed

theorem bringsDocument_merge (document : Json) : (Entry.merge document).call.BringsDocument := by
  cases document <;> trivial

theorem bringsDocument_of_ofFields? {variant : Entry.Variant} {record : Datum} {entry : Entry}
    (read : Entry.ofFields? variant record = some entry) : entry.call.BringsDocument := by
  cases variant with
  | set | change | arrayInsert | arrayAppend =>
      rcases Option.map_eq_some_iff.mp read with ⟨place, readPlace, rfl⟩
      exact wellFormed_of_placeOfForm? readPlace
  | patch =>
      rcases Option.map_eq_some_iff.mp read with ⟨document, readDocument, rfl⟩
      exact bringsDocument_patch (wellFormed_of_documentOfForm? readDocument)
  | merge =>
      rcases Option.map_eq_some_iff.mp read with ⟨document, _, rfl⟩
      exact bringsDocument_merge document
  | unset =>
      rcases Option.bind_eq_some_iff.mp read with ⟨slots, _, fields⟩
      split at fields
      · rcases Option.map_eq_some_iff.mp fields with ⟨paths, _, rfl⟩
        trivial
      · cases fields
  | arrayDelete =>
      rcases Option.bind_eq_some_iff.mp read with ⟨slots, _, fields⟩
      split at fields
      · rcases Option.bind_eq_some_iff.mp fields with ⟨path, _, behindPath⟩
        rcases Option.bind_eq_some_iff.mp behindPath with ⟨position, _, same⟩
        cases same
        trivial
      · cases fields

theorem bringsDocument_of_ofForm? {datum : Datum} {entry : Entry}
    (read : Entry.ofForm? datum = some entry) : entry.call.BringsDocument := by
  rcases Option.bind_eq_some_iff.mp read with ⟨⟨tag, record⟩, _, behindTag⟩
  rcases Option.bind_eq_some_iff.mp behindTag with ⟨variant, _, fields⟩
  exact bringsDocument_of_ofFields? fields

/-! ## Requests -/

theorem entry_of_ofForm? {datum : Datum} {request : Request} (read : ofForm? datum = some request)
    (entry : Entry) (listed : entry ∈ request.operations) :
    Exists fun item => Entry.ofForm? item = some entry := by
  rcases Option.bind_eq_some_iff.mp read with ⟨slots, _, fields⟩
  split at fields
  · rcases Option.bind_eq_some_iff.mp fields with ⟨_, _, behindCollection⟩
    rcases Option.bind_eq_some_iff.mp behindCollection with ⟨operations, given, behindOperations⟩
    rcases Option.bind_eq_some_iff.mp behindOperations with ⟨_, _, behindSort⟩
    rcases Option.bind_eq_some_iff.mp behindSort with ⟨_, _, same⟩
    cases same
    rcases Datum.Slot.exists_of_required? given with ⟨list, readList⟩
    rcases Option.bind_eq_some_iff.mp readList with ⟨items, _, readItems⟩
    exact Datum.exists_of_mem_mapM readItems entry listed
  · cases fields

/-- Every call of a request that was read from a text brings a document, if it brings a value
at all. -/
theorem bringsDocument_of_ofText? {text : String} {request : Request}
    (read : ofText? text = some request) (call : Statement.Call)
    (listed : call ∈ request.calls) : call.BringsDocument := by
  rcases Option.bind_eq_some_iff.mp read with ⟨datum, _, readForm⟩
  simp only [calls, List.mem_append, List.mem_map] at listed
  rcases listed with ((⟨name, _, rfl⟩ | ⟨entry, inOperations, rfl⟩) | sorting) | ⟨rows, _, rfl⟩
  · trivial
  · rcases entry_of_ofForm? readForm entry inOperations with ⟨item, readItem⟩
    exact bringsDocument_of_ofForm? readItem
  · split at sorting
    · cases sorting
    · rw [List.mem_singleton.mp sorting]
      trivial
  · trivial

/-! ## The update of a request -/

theorem performAll_of_foldlM {calls : List Statement.Call} :
    forall {statement built : Statement}, calls.foldlM Statement.perform statement = .ok built ->
      built = statement.performAll calls := by
  induction calls with
  | nil =>
      intro statement built performed
      cases performed
      rfl
  | cons call rest ih =>
      intro statement built performed
      rw [List.foldlM_cons] at performed
      rcases Result.exists_of_bind_eq_ok performed with ⟨next, first, later⟩
      rw [ih later, Statement.performAll, Statement.performAll, List.foldl_cons, first]
      rfl

theorem wellFormed_of_compile {text : String} {request : Request} {statement : Statement}
    {update : Update} (read : ofText? text = some request)
    (built : request.toStatement = .ok statement) (compiled : statement.compile = .ok update) :
    update.WellFormed := by
  rw [performAll_of_foldlM built] at compiled
  exact Statement.wellFormed_of_compile (bringsDocument_of_ofText? read) compiled

end Request
end Emend
