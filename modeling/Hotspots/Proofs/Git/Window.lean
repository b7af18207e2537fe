import Hotspots.Proofs.Git.Listed
import Hotspots.Proofs.Git.Logged
import Hotspots.Proofs.History.Loading
import Hotspots.Proofs.History.TreeTracking
import Hotspots.Triage

/-!
# The window of a history that a run reads

A run reads the newest revisions of a history, or all of it. Their commits replay the window from the tree
before it, so that the walk tracks the tree of the last revision; what the window left untouched is filled up
from the file listing, unless the window begins with a root.
-/

namespace Hotspots

variable {f : ObjectFormat}

namespace Revision

/-! ## Windows -/

/-- The tree at the end of two parts of a history. -/
theorem lastTree_append (before : Tree f) (older newest : List (Revision f)) :
    lastTree before (older ++ newest) = lastTree (lastTree before older) newest := by
  induction older generalizing before with
  | nil => rfl
  | cons r rest ih => exact ih r.tree

/-- The tree at the end of a history is that of its last revision. -/
theorem lastTree_eq {before : Tree f} {revisions : List (Revision f)} {last : Revision f}
    (h : revisions.getLast? = some last) : lastTree before revisions = last.tree := by
  obtain ⟨front, rfl⟩ := List.getLast?_eq_some_iff.1 h
  rw [lastTree_append]
  rfl

/-- The newer part of a history follows its older part. -/
theorem isHistory_of_append {before : Tree f} {older newest : List (Revision f)}
    (h : IsHistory before (older ++ newest)) : IsHistory (lastTree before older) newest := by
  induction older generalizing before with
  | nil => exact h
  | cons r rest ih => exact ih h.2

/-- A replayed history has the commits of its revisions. -/
theorem Replayed.map_sha {before : Tree f} {revisions : List (Revision f)} {commits : List Commit}
    (h : Replayed before revisions commits) : commits.map Commit.sha = revisions.map Revision.sha := by
  induction h with
  | nil => rfl
  | cons _ _ hsha _ _ ih => rw [List.map_cons, List.map_cons, hsha, ih]

/-- Commits that replay the newest revisions of a history, at least one. -/
def IsWindow (revisions : List (Revision f)) (commits : List Commit) : Prop :=
  ∃ older newest, revisions = older ++ newest ∧ newest ≠ [] ∧
    Replayed (lastTree .empty older) newest commits

/-- The commits of the newest revisions of a history are a window of it. -/
theorem isWindow_replayed {revisions older newest : List (Revision f)} (h : IsHistory .empty revisions)
    (hparts : revisions = older ++ newest) (hne : newest ≠ []) (content : String → Bytes) (l : Renames.Limits) :
    IsWindow revisions (replayed content l (lastTree .empty older) newest) :=
  ⟨older, newest, hparts, hne, replayed_replayed (isHistory_of_append (hparts ▸ h))⟩

end Revision

/-- A repository that serves the blobs of all trees of a history serves those of the last one. -/
theorem Revision.holds_lastTree {repository : Repository} {store : ObjectStore f} {before : Tree f}
    {revisions : List (Revision f)} (hbefore : repository.Holds store before)
    (hblobs : ∀ r ∈ revisions, repository.Holds store r.tree) :
    repository.Holds store (lastTree before revisions) := by
  induction revisions generalizing before with
  | nil => exact hbefore
  | cons r rest ih =>
    exact ih (hblobs r List.mem_cons_self) fun r' hr' => hblobs r' (List.mem_cons_of_mem _ hr')

namespace Reader

open Conversation (IsReady)

variable {r : Reader} {name : String} {revisions : List (Revision f)} {store : ObjectStore f}
  {last : Revision f} {T : Prop}

/-! ## Commits of a log -/

/-- The commits that the log lists, before their renames are found; none if there are no commits at all. -/
def loggedCommits (r : Reader) (revision : String) (limit : Value) : Talk (Option (List Commit)) := do
  if ← r.hasCommits then
    let sha ← r.resolve revision
    Run.ofFault (checkLimit limit)
    let raw ← r.output (.log (askedLimit limit) sha)
    return some (← RawLog.commits r.location (Utf8.decodeLossy raw))
  else return none

/-- The commits of a revision, once the log is read. -/
def reported (r : Reader) (limit : Value) : Option (List Commit) → Talk (List Commit)
  | some listed => do
    let commits ← r.reconcileAll listed
    if reachesLimit limit commits.length then
      Run.log .warning ("History truncated to the newest " ++ natText commits.length
        ++ " commits; older changes are not counted")
    Run.log .info ("Read " ++ natText commits.length ++ " commits from " ++ r.location)
    return commits
  | none => do
    Run.log .info ("Repository " ++ r.location ++ " has no commits")
    return []

/-- The commits are those that the log lists, with their renames found. -/
theorem commits_eq (r : Reader) (revision : String) (limit : Value) :
    r.commits revision limit = r.loggedCommits revision limit >>= r.reported limit := by
  rw [commits, loggedCommits, bind_assoc]
  congr
  funext hasCommits
  cases hasCommits <;> simp [reported]

/-- The log is read as the commits that it lists. -/
theorem gives_loggedCommits {P : Conversation → Prop} {revision sha : String} {limit : Value} {raw : Bytes}
    {listed : List Commit} (hhead : Run.Gives T P r.hasCommits true) (hsha : Run.Gives T P (r.resolve revision) sha)
    (hlimit : T → checkLimit limit = .ok ()) (hraw : Run.Gives T P (r.output (.log (askedLimit limit) sha)) raw)
    (hlisted : Run.Gives T P (RawLog.commits r.location (Utf8.decodeLossy raw)) listed) :
    Run.Gives T P (r.loggedCommits revision limit) (some listed) := by
  refine hhead.bind ?_
  rw [if_pos rfl]
  exact hsha.bind ((Run.gives_ofFault (fun _ _ => rfl) hlimit).bind (hraw.bind (hlisted.bind (Run.gives_pure _))))

/-- Reporting commits does not change them. -/
theorem gives_reported {P : Conversation → Prop} (hP : Run.IsSilent P) (limit : Value) {listed commits : List Commit}
    (h : Run.Gives T P (r.reconcileAll listed) commits) :
    Run.Gives T P (r.reported limit (some listed)) commits := by
  have hend : Run.Gives T P (do
      Run.log .info ("Read " ++ natText commits.length ++ " commits from " ++ r.location)
      return commits) commits := (Run.gives_log hP _ _).bind (Run.gives_pure commits)
  refine h.bind ?_
  split
  · exact (Run.gives_log hP _ _).bind hend
  · exact hend

/-- Reconciling the listed commits of a history replays it. -/
theorem gives_reconcileAll (hserved : store.IsServedBy r.repository)
    (hrunning : T → ∀ time, r.repository.endsAt? time = none) {before : Tree f} {revisions : List (Revision f)}
    (hbefore : T → r.repository.Holds store before) (hblobs : T → ∀ r' ∈ revisions, r.repository.Holds store r'.tree) :
    Run.Gives T (IsReady T) (r.reconcileAll (Revision.listedCommits before revisions))
      (Revision.replayed store.content r.limits before revisions) := by
  induction revisions generalizing before with
  | nil => exact Run.gives_pure []
  | cons revision rest ih =>
    have hchanges : Run.Gives T (IsReady T) (Renames.reconcile r.blobContent r.limits (revision.changes before))
        (Renames.paired store.content r.limits (revision.changes before)) := by
      refine Renames.gives_reconcile isSilent_isReady r.limits fun c hc text hnamed => ?_
      have hside := Revision.blobOf_of_mem_changes hc hnamed
      obtain ⟨id, rfl⟩ := hside.elim TreeNode.exists_id_of_blobOf TreeNode.exists_id_of_blobOf
      refine gives_blobContent hserved hrunning fun ht => ?_
      exact hside.elim (hbefore ht c.path id) (hblobs ht revision List.mem_cons_self c.path id)
    have hrest := ih (fun ht => hblobs ht revision List.mem_cons_self)
      fun ht r' hr' => hblobs ht r' (List.mem_cons_of_mem _ hr')
    exact hchanges.bind (hrest.bind (Run.gives_pure _))

/-- The head is a commit if the history has one. -/
theorem gives_hasCommits (h : r.repository.Shows name revisions store)
    (hcalm : T → ∀ command time, r.repository.cancels command time = false)
    (hends : T → ∃ code output complaint, r.repository.answer (.verify "HEAD") = .exited code output complaint) :
    Run.Gives T (IsReady T) r.hasCommits (!revisions.isEmpty) := by
  refine gives_run_bind (keeps_isReady hcalm) (fun code output complaint hanswer => ?_) hends
  have hhead : decide (code = 0) = !revisions.isEmpty := by
    rw [Bool.eq_iff_iff, decide_eq_true_eq, h.head code output complaint hanswer]
    simp
  rw [← hhead]
  exact Run.gives_pure _

/-- If the log prints the newest revisions of a history, and the limit on their number can be written, the commits
that are read replay them. -/
theorem gives_commits (h : r.repository.Shows name revisions store)
    (hT : T → r.repository.Answers name revisions store) (hlast : revisions.getLast? = some last) {limit : Value}
    {older newest : List (Revision f)} (hparts : revisions = older ++ newest)
    (hprints : r.repository.Prints (.log (askedLimit limit) last.sha)
      (Utf8.encodeChars (Revision.log (Revision.lastTree .empty older) newest)))
    (hlog : T → r.repository.Succeeds (.log (askedLimit limit) last.sha)) (hlimit : T → checkLimit limit = .ok ()) :
    Run.Gives T (IsReady T) (r.commits name limit)
      (Revision.replayed store.content r.limits (Revision.lastTree .empty older) newest) := by
  have hhistory : Revision.IsHistory (Revision.lastTree .empty older) newest :=
    Revision.isHistory_of_append (hparts ▸ h.isHistory)
  have hnewest : ∀ r' ∈ newest, r' ∈ revisions := fun r' hr' => by
    rw [hparts]
    exact List.mem_append_right _ hr'
  have hbefore : T → r.repository.Holds store (Revision.lastTree .empty older) := by
    intro ht
    refine Revision.holds_lastTree (fun path id hblob => by cases hblob) fun r' hr' => (hT ht).blobs r' ?_
    rw [hparts]
    exact List.mem_append_left _ hr'
  have hends : T → ∃ code output complaint, r.repository.answer (.verify "HEAD") = .exited code output complaint := by
    intro ht
    obtain ⟨output, complaint, hsuccess⟩ := (hT ht).verify last hlast "HEAD" List.mem_cons_self
    exact ⟨0, output, complaint, hsuccess⟩
  have hne : (!revisions.isEmpty) = true := by
    cases revisions with
    | nil => cases hlast
    | cons _ _ => rfl
  have hhead := gives_hasCommits h (fun ht => (hT ht).isCalm) hends
  rw [hne] at hhead
  have hraw := gives_output (keeps_isReady fun ht => (hT ht).isCalm) hprints hlog
  have hlisted := RawLog.gives_commits (T := T) (isSilent_isReady (T := T)) r.location
    (fun r' hr' => h.isNamed r' (hnewest r' hr')) hhistory fun ht r' hr' => (hT ht).timestamp r' (hnewest r' hr')
  rw [← Utf8.decodeLossy_encodeChars] at hlisted
  have hcommits := gives_reconcileAll h.objects (fun ht => (hT ht).isRunning) hbefore
    fun ht r' hr' => (hT ht).blobs r' (hnewest r' hr')
  rw [commits_eq]
  exact (gives_loggedCommits hhead (gives_resolve_last h hT hlast List.mem_cons_self) hlimit hraw hlisted).bind
    (gives_reported isSilent_isReady limit hcommits)

/-- Of a history without revisions no commits are read. -/
theorem gives_commits_nil (h : r.repository.Shows name ([] : List (Revision f)) store) (limit : Value) :
    Run.Gives False (IsReady False) (r.commits name limit) [] :=
  (gives_hasCommits h False.elim False.elim).bind
    ((Run.gives_log isSilent_isReady _ _).bind (Run.gives_pure []))

end Reader

end Hotspots
