import Hotspots.History.Change
import Hotspots.History.LineOverlap
import Hotspots.Record
import Hotspots.Session

/-!
# Renames among the changes of a commit

A commit lists a moved file as a deletion and an addition. `reconcile` pairs them: first a deletion
with an addition of the same blob, in path order, then, unless there are too many to compare, the most
similar contents first. The empty blob proves no move, and neither does an empty content.

The choice of pairs is made by pure functions; `reconcile` only loads the contents that they need and
keeps the log.
-/

namespace Hotspots.Renames

/-- The identifiers of the empty blob. -/
def emptyBlobs : List String :=
  ["e69de29bb2d1d6434b8b29ae775ad8c2e48c5391",
   "473a0f4c3be8a93681a267e3b1e9a7dcda1185436fe141f7749120a303721813"]

/-- Whether a blob is named. -/
def isNamed (blob : Option String) : Bool := blob.any fun b => !b.isEmpty

/-- Whether a change adds a blob. -/
def isAddition (c : FileChange) : Bool := c.kind == .added && isNamed c.newBlob

/-- Whether a change deletes a blob. -/
def isDeletion (c : FileChange) : Bool := c.kind == .deleted && isNamed c.oldBlob

/-- A deletion and an addition that are one move. -/
structure Pair where
  old : FileChange
  new : FileChange
  similarity : Binary64
  deriving DecidableEq, Repr

namespace Pair

/-- The rename that a pair stands for. -/
def change (p : Pair) : FileChange :=
  { kind := .renamed
    path := p.new.path
    oldPath := some p.old.path
    oldBlob := p.old.oldBlob
    newBlob := p.new.newBlob
    similarity := p.similarity }

/-- What the log says of a pair. -/
def entry (p : Pair) : Entry :=
  ⟨.debug, "Rename " ++ p.old.path ++ " -> " ++ p.new.path ++ " (similarity "
    ++ p.similarity.fixedText 2 ++ ")"⟩

/-- Whether a pair may come before another: the greater similarity first, then the smaller old path,
then the smaller new path. -/
def precedes (p q : Pair) : Bool :=
  if p.similarity.eq q.similarity then
    p.old.path < q.old.path || (p.old.path == q.old.path && p.new.path ≤ q.new.path)
  else q.similarity.lt p.similarity

end Pair

/-- The changes of a commit in the course of pairing. -/
structure Sides where
  added : List FileChange
  deleted : List FileChange
  /-- Changes that are not paired, and the renames found so far. -/
  settled : List FileChange
  deriving DecidableEq, Repr

/-- Changes in the order of their paths. -/
def byPath (changes : List FileChange) : List FileChange :=
  changes.mergeSort fun a b => decide (a.path ≤ b.path)

namespace Sides

/-- The additions and the deletions of blobs, and the other changes. -/
def ofChanges (changes : List FileChange) : Sides :=
  { added := changes.filter isAddition
    deleted := changes.filter isDeletion
    settled := changes.filter fun c => !isAddition c && !isDeletion c }

/-- The sides after one pair is taken from them. -/
def take (s : Sides) (p : Pair) : Sides :=
  { added := s.added.erase p.new
    deleted := s.deleted.erase p.old
    settled := s.settled ++ [p.change] }

/-- The sides after pairs are taken from them. -/
def takeAll (s : Sides) (pairs : List Pair) : Sides := pairs.foldl take s

/-- Whether there is something left to pair. -/
def isOpen (s : Sides) : Bool := !s.added.isEmpty && !s.deleted.isEmpty

/-- Whether a change may come before another: the smaller path first, then the smaller kind name. -/
def precedes (a b : FileChange) : Bool :=
  a.path < b.path || (a.path == b.path && a.kind.name ≤ b.kind.name)

/-- All changes, in order. -/
def changes (s : Sides) : List FileChange :=
  (s.settled ++ s.added ++ s.deleted).mergeSort precedes

end Sides

/-! ## Equal blobs -/

/-- The addition that a deletion is paired with: the first of its blob whose path is not taken. -/
def exactPartner? (added : List FileChange) (taken : List String) (old : FileChange) :
    Option FileChange :=
  added.find? fun new =>
    new.newBlob == old.oldBlob && !(new.newBlob.any emptyBlobs.contains) && !taken.contains new.path

/-- Pairs deletions, in order, with additions of the same blob. -/
def exactFrom (added : List FileChange) : List String → List FileChange → List Pair
  | _, [] => []
  | taken, old :: rest =>
    match exactPartner? added taken old with
    | some new => ⟨old, new, .ofInt 1⟩ :: exactFrom added (new.path :: taken) rest
    | none => exactFrom added taken rest

/-- The pairs of equal blobs. -/
def exactPairs (s : Sides) : List Pair := exactFrom (byPath s.added) [] (byPath s.deleted)

/-! ## Similar contents -/

/-- The contents of changes by their paths; of two changes of one path the later one counts. -/
abbrev Contents := List (String × Bytes)

/-- The content of a path. -/
def contentOf (contents : Contents) (c : FileChange) : Bytes :=
  (Record.get? c.path contents).getD []

/-- A deletion with an addition, if both have content and are similar enough. -/
def candidate? (threshold : Number) (oldContents newContents : Contents) (old new : FileChange) :
    Option Pair :=
  let a := contentOf oldContents old
  let b := contentOf newContents new
  if a.isEmpty || b.isEmpty then none
  else
    let similarity := LineOverlap.similarity a b
    if threshold.le (.real similarity) then some ⟨old, new, similarity⟩ else none

/-- Every deletion with every addition that it may be paired with, in order. -/
def candidates (threshold : Number) (oldContents newContents : Contents) (s : Sides) : List Pair :=
  (s.deleted.flatMap fun old => s.added.filterMap (candidate? threshold oldContents newContents old)).mergeSort
    Pair.precedes

/-- Takes each pair in turn unless one of its paths is used. -/
def greedyFrom : List String → List String → List Pair → List Pair
  | _, _, [] => []
  | usedOld, usedNew, p :: rest =>
    if usedOld.contains p.old.path || usedNew.contains p.new.path then greedyFrom usedOld usedNew rest
    else p :: greedyFrom (p.old.path :: usedOld) (p.new.path :: usedNew) rest

/-- The pairs of similar contents. -/
def similarPairs (threshold : Number) (oldContents newContents : Contents) (s : Sides) : List Pair :=
  greedyFrom [] [] (candidates threshold oldContents newContents s)

/-! ## Both phases -/

/-- How alike contents must be, and how many pairs are compared at most. -/
structure Limits where
  threshold : Number := .real (Binary64.ofRatio false 1 2)
  maxPairs : Number := .whole 10000
  deriving Repr

/-- Whether there are too many pairs to compare. -/
def Limits.excludes (l : Limits) (s : Sides) : Bool :=
  l.maxPairs.lt (.whole (s.deleted.length * s.added.length : Nat))

/-- A limit in the log: its integer part. -/
def limitText : Number → String
  | .whole i => intText i
  | .real x => intText (x.truncate?.getD 0)

/-- What the log says when there are too many pairs to compare. -/
def skippedText (l : Limits) (s : Sides) : String :=
  "Skipping content rename detection: " ++ natText s.deleted.length ++ " deletions x "
    ++ natText s.added.length ++ " additions exceeds limit " ++ limitText l.maxPairs

variable {σ : Type}

/-- The contents of changes, loaded in order. -/
def loadAll (load : String → Run σ Bytes) (blob : FileChange → Option String) :
    Contents → List FileChange → Run σ Contents
  | contents, [] => return contents
  | contents, c :: rest => do
    let content ← load ((blob c).getD "")
    loadAll load blob (Record.put c.path content contents) rest

variable [HasSession σ]

/-- Takes pairs from the sides and logs them. -/
def settle (s : Sides) (pairs : List Pair) : Run σ Sides := do
  Run.logAll (pairs.map Pair.entry)
  return s.takeAll pairs

/-- Pairs what is left by content. -/
def reconcileContents (load : String → Run σ Bytes) (l : Limits) (s : Sides) : Run σ Sides := do
  if l.excludes s then
    Run.log .warning (skippedText l s)
    return s
  else
    let oldContents ← loadAll load FileChange.oldBlob [] s.deleted
    let newContents ← loadAll load FileChange.newBlob [] s.added
    settle s (similarPairs l.threshold oldContents newContents s)

/-- The changes of a commit with its moves turned into renames, in order. -/
def reconcile (load : String → Run σ Bytes) (l : Limits) (changes : List FileChange) :
    Run σ (List FileChange) := do
  let start := Sides.ofChanges changes
  let left ← settle start (exactPairs start)
  if left.isOpen then return (← reconcileContents load l left).changes
  else return left.changes

end Hotspots.Renames
