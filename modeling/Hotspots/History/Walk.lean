import Hotspots.History.Change
import Hotspots.Record
import Hotspots.Session

/-!
# Churn from a walk through history

`Walk` replays commits, oldest first. An addition or an edit of a path touches the identity that is open
at the path, or opens one. A rename moves the identity to its new path and touches it only if its content
changed; an identity that stood there is closed. A deletion closes the identity of the path, and adding
the path later opens a new one. A path that the walk has not seen opens an identity on the spot.
-/

namespace Hotspots

/-- The churn records of a history in the order of their uids, the last commit walked, and the number of
commits. -/
structure ChurnHistory where
  records : List ChurnRecord := []
  head : Option String := none
  commitCount : Nat := 0
  deriving DecidableEq, Repr

namespace ChurnHistory

/-- The identities that still exist, by path; of two at one path the later one counts. -/
def liveByPath (h : ChurnHistory) : List (String × FileIdentity) :=
  Record.putAll ((h.records.filter ChurnRecord.isLive).map fun r => (r.identity.path, r.identity)) []

/-- The first record that is live at a path. -/
def forPath (h : ChurnHistory) (path : String) : Option ChurnRecord :=
  h.records.find? fun r => r.identity.path == path && r.isLive

end ChurnHistory

/-- A walk through history: what it has found, and the place of the record that is open at a path. -/
structure Walk where
  history : ChurnHistory := {}
  openAt : List (String × Nat) := []
  deriving DecidableEq, Repr

namespace ChurnRecord

/-- A record after one more change. -/
def touch (time : Int) (r : ChurnRecord) : ChurnRecord :=
  { r with changeCount := r.changeCount + 1, lastModified := time }

/-- A record after its file was deleted. -/
def close (time : Int) (r : ChurnRecord) : ChurnRecord := { r with deletedAt := some time }

/-- A record after its file was moved. -/
def moveTo (path : String) (r : ChurnRecord) : ChurnRecord :=
  { r with identity := { r.identity with
      path := path
      previousPaths := r.identity.previousPaths ++ [r.identity.path] } }

end ChurnRecord

namespace Walk

/-- The walk with the record at a place changed. -/
def modify (w : Walk) (place : Nat) (f : ChurnRecord → ChurnRecord) : Walk :=
  { w with history := { w.history with records := w.history.records.modify place f } }

/-- The place of the record that is open at a path. -/
def at? (w : Walk) (path : String) : Option Nat := Record.get? path w.openAt

/-- Opens an identity at a path. -/
def openPath (w : Walk) (path : String) (time : Int) : Walk :=
  let place := w.history.records.length
  { history := { w.history with records := w.history.records ++
      [{ identity := { uid := place, path := path }
         changeCount := 1
         firstModified := time
         lastModified := time }] }
    openAt := Record.put path place w.openAt }

/-- Touches the identity at a path, or opens one. -/
def touch (w : Walk) (path : String) (time : Int) : Walk :=
  match w.at? path with
  | some place => w.modify place (.touch time)
  | none => w.openPath path time

/-- The place of the identity that a rename moves, if the walk has seen it. -/
def moved? (w : Walk) (c : FileChange) : Option Nat :=
  match c.oldPath with
  | none => none
  | some old => if old.isEmpty then none else w.at? old

/-- Whether a rename changed the content. -/
def isEdited (c : FileChange) : Bool := c.similarity.lt (.ofInt 1)

/-- Moves the record at a place from its old path to the path of a change. -/
def move (w : Walk) (place : Nat) (c : FileChange) (time : Int) : Walk :=
  let without := { w with openAt := Record.erase (c.oldPath.getD "") w.openAt }
  let cleared := match without.at? c.path with
    | some displaced => without.modify displaced (.close time)
    | none => without
  let changed := cleared.modify place fun r =>
    if isEdited c then (r.moveTo c.path).touch time else r.moveTo c.path
  { changed with openAt := Record.put c.path place changed.openAt }

/-- Closes the identity at a path. -/
def close (w : Walk) (path : String) (time : Int) : Walk :=
  match w.at? path with
  | some place => { w.modify place (.close time) with openAt := Record.erase path w.openAt }
  | none => w

/-- The walk after one change. -/
def apply (time : Int) (w : Walk) (c : FileChange) : Walk :=
  match c.kind with
  | .added => w.touch c.path time
  | .modified => w.touch c.path time
  | .renamed =>
    match w.moved? c with
    | some place => w.move place c time
    | none => w.openPath c.path time
  | .deleted => w.close c.path time

/-- The walk after one commit. -/
def feed (w : Walk) (c : Commit) : Walk :=
  let after := c.changes.foldl (apply c.timestamp) w
  { after with history := { after.history with
      head := some c.sha
      commitCount := after.history.commitCount + 1 } }

/-- What the log says of one change: a deletion of a path that is not open has no effect. -/
def remark (w : Walk) (c : FileChange) : List Entry :=
  if c.kind = .deleted ∧ w.at? c.path = none then
    [⟨.debug, "Deletion of unseen path " ++ c.path ++ " ignored"⟩]
  else []

/-- What the log says of changes that are applied in order. -/
def remarks (time : Int) : Walk → List FileChange → List Entry
  | _, [] => []
  | w, c :: rest => w.remark c ++ remarks time (w.apply time c) rest

/-- Opens an identity for a path that has none. -/
def openMissing (time : Int) (w : Walk) (path : String) : Walk :=
  if (w.at? path).isSome then w else w.openPath path time

/-- Opens an identity with one change for every path that has none, in the order of the paths. -/
def backfill (w : Walk) (paths : List String) (time : Int) : Walk :=
  (paths.mergeSort fun a b => decide (a ≤ b)).foldl (openMissing time) w

/-- How many identities a walk has more than an earlier one. -/
def openedSince (earlier later : Walk) : Nat :=
  later.history.records.length - earlier.history.records.length

variable {σ : Type} [HasSession σ]

/-- The walk after one commit, with its remarks in the log. -/
def feedLogged (w : Walk) (c : Commit) : Run σ Walk := do
  Run.logAll (remarks c.timestamp w c.changes)
  return w.feed c

/-- Walks commits as they arrive, with a checkpoint before each, from a walk and the time of its first
commit. -/
def along (w : Walk) (first : Option Int) : List (Run σ Commit) → Run σ (Walk × Option Int)
  | [] => return (w, first)
  | arrival :: rest => do
    let c ← arrival
    Run.checkpoint "history"
    let next ← w.feedLogged c
    next.along (some (first.getD c.timestamp)) rest

/-- Opens the tracked paths that the walk has not seen, dated at its first commit. -/
def completed (w : Walk) (first : Option Int) (tracked : Option (List String)) : Run σ Walk :=
  match tracked, first with
  | some paths, some time => do
    let full := w.backfill paths time
    let opened := w.openedSince full
    if opened ≠ 0 then
      Run.log .info ("Opened " ++ natText opened ++ " identities untouched in the walked window")
    return full
  | _, _ => return w

end Walk

/-- The churn of commits that arrive oldest first. The tracked paths are the files at the last commit,
which count as touched once if the walk has not seen them. -/
def ChurnHistory.ofCommits {σ : Type} [HasSession σ] (arrivals : List (Run σ Commit))
    (tracked : Option (List String)) : Run σ ChurnHistory := do
  let (walk, first) ← Walk.along {} none arrivals
  let full ← walk.completed first tracked
  Run.log .info ("Aggregated churn for " ++ natText full.history.records.length
    ++ " file identities over " ++ natText full.history.commitCount ++ " commits")
  return full.history

end Hotspots
