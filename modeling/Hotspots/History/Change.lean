import Hotspots.Number.Real
import Hotspots.Failure

/-!
# Commits and what they change

A commit lists how it touched paths, compared with its first parent. A file keeps its identity when it
is renamed, and a churn record says how often and when the commits of a history touched one identity.
-/

namespace Hotspots

/-- How a commit touched a path. -/
inductive ChangeKind where
  | added
  | modified
  | deleted
  | renamed
  deriving DecidableEq, Repr

namespace ChangeKind

/-- The name of a kind of change. -/
def name : ChangeKind → String
  | added => "added"
  | modified => "modified"
  | deleted => "deleted"
  | renamed => "renamed"

/-- Every kind of change. -/
def all : List ChangeKind := [added, modified, deleted, renamed]

/-- The kind of change of a name. -/
def ofName (s : String) : Except Fault ChangeKind :=
  match all.find? fun k => k.name == s with
  | some k => .ok k
  | none => .error (.notAChangeKind s)

/-- A kind is found under its name. -/
theorem ofName_name (k : ChangeKind) : ofName k.name = .ok k := by cases k <;> rfl

end ChangeKind

/-- One change of a commit. A rename has an old path and a similarity, which is 1 for equal contents;
the other kinds leave them out. -/
structure FileChange where
  kind : ChangeKind
  path : String
  oldPath : Option String := none
  oldBlob : Option String := none
  newBlob : Option String := none
  similarity : Binary64 := .zero
  deriving DecidableEq, Repr

/-- A commit with its changes; the first parent is the one that it is compared with. -/
structure Commit where
  sha : String
  timestamp : Int
  parents : List String := []
  changes : List FileChange := []
  deriving DecidableEq, Repr

/-- Whether a commit begins a history. -/
def Commit.isRoot (c : Commit) : Bool := c.parents.isEmpty

/-- A logical file, stable across renames; the previous paths are listed oldest first. -/
structure FileIdentity where
  uid : Int
  path : String
  previousPaths : List String := []
  deriving DecidableEq, Repr

/-- How often and when a history touched one identity, and when it was deleted, if it was. -/
structure ChurnRecord where
  identity : FileIdentity
  changeCount : Int
  firstModified : Int
  lastModified : Int
  deletedAt : Option Int := none
  deriving DecidableEq, Repr

/-- Whether an identity still exists. -/
def ChurnRecord.isLive (r : ChurnRecord) : Bool := r.deletedAt.isNone

end Hotspots
