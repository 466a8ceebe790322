import Emend.Operation

namespace Emend

/-!
# Notes on a list of operations

Notes tell which operations of a list undo or replace what an earlier one
wrote.  They refuse nothing: the operations take effect in their order all the
same.
-/

inductive Note where
  /-- Operation `index` writes at the very path at which `earlier` wrote. -/
  | overrides (index earlier : UInt64) (path : Path)
  /-- Operation `index` writes at or below a path that the patch `patchIndex`
  removed. -/
  | restoresPatchedNull (index patchIndex : UInt64) (path : Path)
  deriving DecidableEq

/-- The text of a note. -/
def Note.describe : Note → String
  | .overrides index earlier path =>
      "operation #" ++ toString index ++ " overrides operation #" ++ toString earlier ++
        " at " ++ path.write
  | .restoresPatchedNull index patchIndex path =>
      "operation #" ++ toString index ++ " writes " ++ path.write ++ " after patch #" ++
        toString patchIndex ++ " removed it"

/-! ## What a patch writes -/

mutual
/-- The leaves of a patch below a path: the members reached through objects
that have members, with the values they get. -/
def leavesAt (path : Path) : Json → List (Path × Json)
  | .object (member :: rest) => leavesOfMembers path (member :: rest)
  | .object [] => [(path, .object [])]
  | .array items => [(path, .array items)]
  | .null => [(path, .null)]
  | .bool value => [(path, .bool value)]
  | .number value => [(path, .number value)]
  | .string value => [(path, .string value)]

/-- The leaves of a list of members of the object at a path. -/
def leavesOfMembers (path : Path) : List (String × Json) → List (Path × Json)
  | [] => []
  | (name, value) :: rest => leavesAt (path.field name) value ++ leavesOfMembers path rest
end

/-- The leaves of a patch. -/
def patchLeaves (document : Members Json) : List (Path × Json) :=
  leavesOfMembers .root document

/-! ## History -/

/-- What is remembered of the operations before the current one. -/
structure History where
  /-- The latest operation that wrote at a path, by the path's canonical
  text. -/
  writes : Members Nat
  /-- Paths that a patch removed and no later operation wrote, each with the
  patch, in the order of the patches. -/
  removals : List (Path × Nat)

namespace History

def empty : History := ⟨[], []⟩

/-- The latest operation that wrote exactly at a path. -/
def lastWrite? (history : History) (path : Path) : Option Nat :=
  Members.get? history.writes path.write

/-- The latest patch that removed a path or something above it. -/
def removalAbove? (history : History) (path : Path) : Option Nat :=
  (history.removals.findRev? fun removal => path.startsWith removal.1).map (·.2)

/-- The note that an operation overrides an earlier write, if there was one. -/
def overrideNote (history : History) (index : Nat) (path : Path) : List Note :=
  match history.lastWrite? path with
  | some earlier => [.overrides (UInt64.ofNat index) (UInt64.ofNat earlier) path]
  | none => []

/-- The history after a write at a path. -/
def write (history : History) (index : Nat) (path : Path) : History :=
  ⟨Members.insert path.write index history.writes,
    history.removals.filter fun removal => removal.1 != path⟩

/-- The history after a patch wrote one of its leaves. -/
def writeLeaf (history : History) (index : Nat) (leaf : Path × Json) : History :=
  let written := history.write index leaf.1
  if leaf.2.isNull then
    { written with removals := written.removals ++ [(leaf.1, index)] }
  else
    written

/-- The notes on the leaves of a patch, and the history after it. -/
def recordLeaves (history : History) (index : Nat) : List (Path × Json) → List Note × History
  | [] => ([], history)
  | leaf :: rest =>
      let (notes, final) := recordLeaves (history.writeLeaf index leaf) index rest
      (history.overrideNote index leaf.1 ++ notes, final)

/-- Whether operations of a kind replace what stands at their path.  The array
operations add to it. -/
def replaces : Operation.Kind → Bool
  | .set | .change | .unset => true
  | .patch | .arrayInsert | .arrayAppend => false

/-- The notes on an operation with a path, and the history after it.  Writing
below something that a patch removed is noted in preference to overriding. -/
def recordAt (history : History) (index : Nat) (kind : Operation.Kind) (path : Path) :
    List Note × History :=
  let removal := if kind = .unset then none else history.removalAbove? path
  let notes :=
    match removal with
    | some patch => [.restoresPatchedNull (UInt64.ofNat index) (UInt64.ofNat patch) path]
    | none => if replaces kind then history.overrideNote index path else []
  (notes, if replaces kind then history.write index path else history)

/-- The notes on an operation, and the history after it. -/
def record (history : History) (index : Nat) (operation : Operation) : List Note × History :=
  match operation with
  | .patch document => history.recordLeaves index (patchLeaves document)
  | other => history.recordAt index other.kind other.path

/-- The notes on operations that are numbered from `index` on. -/
def notesFrom (history : History) (index : Nat) : List Operation → List Note
  | [] => []
  | operation :: rest =>
      let (notes, history) := history.record index operation
      notes ++ notesFrom history (index + 1) rest

end History

/-- The notes on a list of operations. -/
def notesOn (operations : List Operation) : List Note :=
  History.empty.notesFrom 0 operations

end Emend
