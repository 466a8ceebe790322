import Emend.Proofs.Wire.Message
import Emend.Proofs.Wire.MessagePack
import Emend.Wire.Client

namespace Emend

/-!
# Replies that tell an outcome

The client takes an outcome from the count and the two lists of a success; whatever
else it is told is a failure.  So the reply that a peer makes of an outcome, or of a
failure, is understood by the client as that outcome or failure.  Nothing is lost on the
way: the lists of an outcome are left out only when both are empty, and then the client
takes them for empty.
-/

namespace Json

theorem nesting_texts (texts : List String) : nestingItems (texts.map .string) = 0 := by
  induction texts with
  | nil => rfl
  | cons text rest ih =>
      rw [List.map_cons, nestingItems, ih]
      rfl

theorem wellFormed_texts (texts : List String) : WellFormedItems (texts.map .string) := by
  induction texts with
  | nil => trivial
  | cons text rest ih =>
      rw [List.map_cons, WellFormedItems]
      exact ⟨trivial, ih⟩

end Json

/-! ## What a reply tells -/

namespace Outcome

/-- The texts that data hold under a name.  There are none if nothing or null is found, and a
failure if something else is found than a list of texts; what the failure says in detail is
up to the reader. -/
inductive TextsIn (data : Json) (name : String) : Except Failure (List String) -> Prop where
  | missing (nothing : data.member? name = none) : TextsIn data name (.ok [])
  | null (found : data.member? name = some .null) : TextsIn data name (.ok [])
  | listed {texts : List String} (found : data.member? name = some (.array (texts.map .string))) :
      TextsIn data name (.ok texts)
  | other {value : Json} {detail : String} (found : data.member? name = some value)
      (notNull : value ≠ .null)
      (noTexts : forall texts : List String, value ≠ .array (texts.map .string)) :
      TextsIn data name (.error (.protocol ("Invalid " ++ name ++ ": " ++ detail)))

theorem eq_string_of_toText? {value : Json} {text : String}
    (read : Datum.toText? (.ofJson value) = some text) : value = .string text := by
  cases value with
  | string found => exact congrArg Json.string (Option.some.inj read)
  | number found => cases found <;> cases read
  | null | bool | array | object => cases read

theorem eq_map_of_mapM_toText? {items : List Json} :
    forall {texts : List String}, (Datum.ofItems items).mapM Datum.toText? = some texts ->
      items = texts.map .string := by
  induction items with
  | nil =>
      intro texts read
      cases read
      rfl
  | cons item rest ih =>
      intro texts read
      rw [Datum.ofItems, List.mapM_cons] at read
      rcases Option.bind_eq_some_iff.mp read with ⟨text, first, others⟩
      rcases Option.bind_eq_some_iff.mp others with ⟨behind, later, same⟩
      cases same
      rw [List.map_cons, eq_string_of_toText? first, ih later]

theorem eq_array_of_toList?_toText? {value : Json} {texts : List String}
    (read : Datum.toList? Datum.toText? (.ofJson value) = some texts) :
    value = .array (texts.map .string) := by
  cases value with
  | array items => exact congrArg Json.array (eq_map_of_mapM_toText? read)
  | number found => cases found <;> cases read
  | null | bool | string | object => cases read

theorem textsIn_stringsIn (data : Json) (name : String) :
    TextsIn data name (stringsIn data name) := by
  rw [stringsIn]
  split
  · next nothing => exact .missing nothing
  · next found => exact .null found
  · next value notNull found =>
      cases read : Datum.toList? Datum.toText? (.ofJson value) with
      | some texts => exact .listed (eq_array_of_toList?_toText? read ▸ found)
      | none =>
          have message : ": not a list of strings" = ": " ++ "not a list of strings" := rfl
          dsimp only
          rw [message, ← String.append_assoc]
          refine .other found notNull ?_
          rintro texts rfl
          rw [Datum.Sure.toList? (fun text _ => Datum.sure_toText? text) _
            (Datum.shows_ofJson _)] at read
          cases read

/-- What a reply to an update tells: of a success the count and the two lists, or the failure
to read the first list that cannot be read. -/
inductive ToldBy : Reply -> Except Failure Outcome -> Prop where
  | counted {count : Option UInt64} {transaction : Option String} :
      ToldBy (.ok none count transaction) (.ok ⟨count.getD 0, [], []⟩)
  | listed {data : Json} {count : Option UInt64} {transaction : Option String}
      {generatedIds warnings : List String} (ids : TextsIn data "generated_ids" (.ok generatedIds))
      (told : TextsIn data "warnings" (.ok warnings)) :
      ToldBy (.ok (some data) count transaction) (.ok ⟨count.getD 0, generatedIds, warnings⟩)
  | unreadIds {data : Json} {count : Option UInt64} {transaction : Option String}
      {failure : Failure} (ids : TextsIn data "generated_ids" (.error failure)) :
      ToldBy (.ok (some data) count transaction) (.error failure)
  | unreadWarnings {data : Json} {count : Option UInt64} {transaction : Option String}
      {generatedIds : List String} {failure : Failure}
      (ids : TextsIn data "generated_ids" (.ok generatedIds))
      (told : TextsIn data "warnings" (.error failure)) :
      ToldBy (.ok (some data) count transaction) (.error failure)
  | refusal {failure : Failure} : ToldBy (.error failure) (.error failure)
  | pong {timestamp : Int64} :
      ToldBy (.pong timestamp) (.error (.protocol "Unexpected pong response to modify"))

theorem toldBy_ofReply (reply : Reply) : ToldBy reply (ofReply reply) := by
  cases reply with
  | ok data count transaction =>
      cases data with
      | none => exact .counted
      | some data =>
          have ids := textsIn_stringsIn data "generated_ids"
          have told := textsIn_stringsIn data "warnings"
          rw [ofReply]
          cases readIds : stringsIn data "generated_ids" with
          | error failure => exact .unreadIds (readIds ▸ ids)
          | ok generatedIds =>
              cases readWarnings : stringsIn data "warnings" with
              | error failure => exact .unreadWarnings (readIds ▸ ids) (readWarnings ▸ told)
              | ok warnings => exact .listed (readIds ▸ ids) (readWarnings ▸ told)
  | error failure => exact .refusal
  | pong timestamp => exact .pong

/-! ## Replies to outcomes -/

theorem stringsIn_of_member {data : Json} {name : String} {texts : List String}
    (found : data.member? name = some (.array (texts.map .string))) :
    stringsIn data name = .ok texts := by
  have read : Datum.toList? Datum.toText? (.ofJson (.array (texts.map .string))) = some texts :=
    Datum.Sure.toList? (fun text _ => Datum.sure_toText? text) _ (Datum.shows_ofJson _)
  rw [stringsIn, found]
  simp only [read]

theorem ofReply_toReply (outcome : Outcome) : ofReply outcome.toReply = .ok outcome := by
  rcases outcome with ⟨affected, generatedIds, warnings⟩
  rw [toReply]
  cases nothing : generatedIds.isEmpty && warnings.isEmpty with
  | true =>
      rcases Bool.and_eq_true_iff.mp nothing with ⟨noIds, noWarnings⟩
      rw [List.isEmpty_iff.mp noIds, List.isEmpty_iff.mp noWarnings]
      rfl
  | false =>
      let data : Json := .object [("generated_ids", .array (generatedIds.map .string)),
        ("warnings", .array (warnings.map .string))]
      have ids : stringsIn data "generated_ids" = .ok generatedIds := stringsIn_of_member rfl
      have told : stringsIn data "warnings" = .ok warnings := stringsIn_of_member rfl
      simp only [Bool.false_eq_true, if_false, ofReply]
      rw [ids, told]
      rfl

/-- The reply that tells an outcome is a message like any other, and it is
received as it is. -/
theorem toReply_sendable (outcome : Outcome) :
    outcome.toReply.WellFormed ∧ outcome.toReply.received = outcome.toReply ∧
      outcome.toReply.toForm.nesting ≤ 3 := by
  rw [toReply]
  cases outcome.generatedIds.isEmpty && outcome.warnings.isEmpty with
  | true =>
      refine ⟨trivial, rfl, ?_⟩
      simp [Reply.toForm, Json.nesting, Json.nestingMembers]
  | false =>
      refine ⟨?_, rfl, ?_⟩
      · have sorted : compare "generated_ids" "warnings" = .lt := by decide
        simp [Reply.WellFormed, Json.WellFormed, Json.WellFormedMembers, Members.Sorted, sorted,
          Json.wellFormed_texts]
      · simp [Reply.toForm, Json.nesting, Json.nestingMembers, Json.nesting_texts]

end Outcome

namespace Failure

theorem nesting_toForm (failure : Failure) : failure.toForm.nesting ≤ 1 := by
  cases failure <;> simp [toForm, Json.nesting, Json.nestingMembers]

end Failure

end Emend
