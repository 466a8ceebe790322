import Mathlib
import Emend.Fault
import Emend.Operation.Form
import Emend.Proofs.Update.History

namespace Emend
namespace Path

/-!
# Canonical texts lose nothing

Whatever stands for a path by its canonical text can be taken back to the path:
the text itself, the written form, and the history, which keeps the numbers of
writes by texts.
-/

theorem parseAllowingRoot_write (path : Path) : parseAllowingRoot path.write = .ok path := by
  rw [parseAllowingRoot, read_write]
  rfl

theorem ofForm?_write (path : Path) : ofForm? (.ofJson (.string path.write)) = some path := by
  have asText : (Datum.ofJson (.string path.write)).toText? = some path.write := rfl
  rw [ofForm?, asText, Option.bind_some, read_write]
  rfl

/-- Every path is read back from its canonical text and from its written form.
Hence no two paths share a text, a write noted in a history answers for its own
path only, and a text that has been read can be replaced by the canonical one. -/
theorem write_loses_nothing :
    (forall path : Path, parseAllowingRoot path.write = .ok path) ∧
    (forall left right : Path, left.write = right.write -> left = right) ∧
    (forall (history : History) (index : Nat) (written asked : Path),
      (history.write index written).lastWrite? asked =
        if asked = written then some index else history.lastWrite? asked) ∧
    (forall path : Path, ofForm? (.ofJson (.string path.write)) = some path) ∧
    (forall (text : String) (path : Path), parseAllowingRoot text = .ok path ->
      parseAllowingRoot path.write = .ok path) := by
  refine ⟨parseAllowingRoot_write, ?_, ?_, ofForm?_write, ?_⟩
  · intro left right same
    exact eq_of_write_eq same
  · intro history index written asked
    exact History.lastWrite?_write history index written asked
  · intro text path _
    exact parseAllowingRoot_write path

/-- A name without characters, a name of backquotes, names with digits and
separators, and indices next to each other. -/
def awkward : Path :=
  ⟨[.field "", .field "`", .index 0, .index 4294967295, .field "2x", .field "a.b[0] ",
    .field "_ok"]⟩

theorem write_awkward :
    awkward.write = "$.``.````[0][4294967295].`2x`.`a.b[0] `._ok" ∧
    parseAllowingRoot awkward.write = .ok awkward ∧
    parseAllowingRoot "a[007].`b`" = .ok ⟨[.field "a", .index 7, .field "b"]⟩ ∧
    parseAllowingRoot (Path.mk [.field "a", .index 7, .field "b"]).write =
      .ok ⟨[.field "a", .index 7, .field "b"]⟩ ∧
    (ofNames ["a.b"]).write ≠ (ofNames ["a", "b"]).write := by
  refine ⟨by cbv, ?_⟩
  have spelled : parseAllowingRoot "a[007].`b`" = .ok ⟨[.field "a", .index 7, .field "b"]⟩ := by
    cbv
  refine ⟨write_loses_nothing.1 awkward, spelled,
    write_loses_nothing.2.2.2.2 _ _ spelled, ?_⟩
  intro same
  have impossible := write_loses_nothing.2.1 _ _ same
  exact absurd impossible (by decide)

end Path
end Emend
