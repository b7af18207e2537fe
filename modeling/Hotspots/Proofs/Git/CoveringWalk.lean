import Hotspots.Proofs.Git.Window

/-!
# The churn of a window

The churn that a run takes from a window of a history is that of a walk that tracks the tree of the last
revision and has every regular file of it open, wherever the window begins.
-/

namespace Hotspots

variable {f : ObjectFormat}

namespace Walk

/-- A walk covers a tree: it tracks the tree, and every regular file of it is open. -/
structure Covers (w : Walk) (t : Tree f) : Prop where
  tracks : w.Tracks t
  isOpen : ∀ path ∈ t.files, w.isOpen path = true

/-- Filling up does not change the last commit of a walk. -/
theorem head_backfill (w : Walk) (paths : List String) (time : Int) :
    (w.backfill paths time).history.head = w.history.head :=
  backfill_induction (P := fun filled => filled.history.head = w.history.head) rfl fun _ _ _ _ h => h

/-- Filling up a walk that tracks a tree with its regular files covers the tree. -/
theorem Tracks.covers_backfill {w : Walk} {t : Tree f} (h : w.Tracks t) (time : Int) :
    (w.backfill (Reader.sorted t.files) time).Covers t := by
  have hmem : ∀ path, path ∈ Reader.sorted t.files ↔ path ∈ t.files := fun path =>
    (List.mergeSort_perm _ _).mem_iff
  refine ⟨h.backfill (fun path hpath => t.files_subset_tracked ((hmem path).1 hpath)) time, fun path hpath => ?_⟩
  exact (isOpen_backfill _ _ _ _).2 (.inr ((hmem path).2 hpath))

/-- The last commit of a walk along commits is the last of them. -/
theorem head_foldl_feed (w : Walk) {commits : List Commit} {c : Commit} (h : commits.getLast? = some c) :
    (commits.foldl feed w).history.head = some c.sha := by
  obtain ⟨front, rfl⟩ := List.getLast?_eq_some_iff.1 h
  rw [List.foldl_append]
  rfl

/-- The last commit of a window is the last revision. -/
theorem exists_last_of_isWindow {revisions : List (Revision f)} {commits : List Commit} {last : Revision f}
    (hlast : revisions.getLast? = some last) (h : Revision.IsWindow revisions commits) :
    ∃ c, commits.getLast? = some c ∧ c.sha = last.sha := by
  obtain ⟨older, newest, hparts, hne, hreplayed⟩ := h
  have hmap : commits.getLast?.map Commit.sha = some last.sha := by
    rw [hparts, List.getLast?_append_of_ne_nil _ hne] at hlast
    rw [← List.getLast?_map, hreplayed.map_sha, List.getLast?_map, hlast]
    rfl
  exact Option.map_eq_some_iff.1 hmap

/-- A walk along a window of a history tracks the tree of the last revision, and covers it if the window
begins with a root. -/
theorem tracks_of_isWindow {revisions : List (Revision f)} {commits : List Commit} {last : Revision f}
    (hparents : ∀ r ∈ revisions.tail, r.parents ≠ []) (hlast : revisions.getLast? = some last)
    (h : Revision.IsWindow revisions commits) :
    (commits.foldl feed {}).Tracks last.tree ∧ ∀ first, commits.head? = some first →
      first.isRoot = true → (commits.foldl feed {}).Covers last.tree := by
  obtain ⟨older, newest, hparts, hne, hreplayed⟩ := h
  have htree : Revision.lastTree (Revision.lastTree .empty older) newest = last.tree := by
    rw [← Revision.lastTree_append, ← hparts, Revision.lastTree_eq hlast]
  obtain ⟨htracks, hcovers⟩ := Tracks.foldl_feed hreplayed (tracks_empty _)
  rw [htree] at htracks hcovers
  refine ⟨htracks, fun first hfirst hroot => ⟨htracks, fun path hpath => ?_⟩⟩
  have hwhole : older = [] := by
    cases hreplayed with
    | nil => exact (hne rfl).elim
    | @cons _ r c rest more _ _ _ hcparents _ =>
      cases older with
      | nil => rfl
      | cons o rest' =>
        refine absurd ?_ (hparents r (by rw [hparts]; simp))
        rw [List.head?_cons, Option.some.injEq] at hfirst
        rw [← hcparents, hfirst]
        exact List.isEmpty_iff.1 hroot
  have hnothing : ∀ path ∈ (Revision.lastTree (Tree.empty (f := f)) older).tracked,
      isOpen {} path = true := by
    rw [hwhole]
    exact fun _ h => absurd h List.not_mem_nil
  exact hcovers hnothing path (last.tree.files_subset_tracked hpath)

/-! ## The walk of a run -/

/-- The walk along commits, filled up as of the first commit with the tracked paths, if there are any. -/
def ofCommits (commits : List Commit) (tracked : Option (List String)) : Walk :=
  match tracked, commits.head? with
  | some paths, some first => (commits.foldl feed {}).backfill paths first.timestamp
  | _, _ => commits.foldl feed {}

/-- The last commit of the walk of a run is the last of its commits. -/
theorem head_ofCommits {commits : List Commit} {last : Commit} (h : commits.getLast? = some last)
    (tracked : Option (List String)) : (ofCommits commits tracked).history.head = some last.sha := by
  have halong := head_foldl_feed {} h
  unfold ofCommits
  split
  · exact (head_backfill _ _ _).trans halong
  · exact halong

/-- The walk along a window of commits, filled up with files unless the window begins with a root. -/
def ofWindow (commits : List Commit) (files : List String) : Walk :=
  ofCommits commits (if commits.head?.any Commit.isRoot then none else some (Reader.sorted files))

/-- The walk along a window of a history covers the tree of the last revision, and has come to that revision. -/
theorem covers_ofWindow {revisions : List (Revision f)} {commits : List Commit} {last : Revision f}
    (hparents : ∀ r ∈ revisions.tail, r.parents ≠ []) (hlast : revisions.getLast? = some last)
    (h : Revision.IsWindow revisions commits) :
    (ofWindow commits last.tree.files).Covers last.tree ∧
      (ofWindow commits last.tree.files).history.head = some last.sha := by
  obtain ⟨c, hc, hsha⟩ := exists_last_of_isWindow hlast h
  obtain ⟨htracks, hcovers⟩ := tracks_of_isWindow hparents hlast h
  have hne : commits ≠ [] := by
    rintro rfl
    cases hc
  obtain ⟨first, hfirst⟩ := Option.ne_none_iff_exists'.1 (List.head?_eq_none_iff.not.2 hne)
  refine ⟨?_, (head_ofCommits hc _).trans (congrArg some hsha)⟩
  unfold ofWindow ofCommits
  rw [hfirst, Option.any_some]
  by_cases hroot : first.isRoot = true
  · rw [if_pos hroot]
    exact hcovers first hfirst hroot
  · rw [if_neg hroot]
    exact htracks.covers_backfill first.timestamp

section Runs

variable {σ : Type} [HasSession σ] {P : σ → Prop} {T : Prop}

/-- A walk along commits that are there feeds them in order, and keeps the time of the first. -/
theorem gives_along (hP : Run.IsSilent P) (hcalm : T → ∀ s, P s → (HasSession.session s).cancelled = false) (w : Walk)
    (first : Option Int) (commits : List Commit) :
    Run.Gives T P (w.along first (commits.map pure))
      (commits.foldl feed w, first.or (commits.head?.map Commit.timestamp)) := by
  induction commits generalizing w first with
  | nil =>
    rw [List.head?_nil, Option.map_none, Option.or_none]
    exact Run.gives_pure (w, first)
  | cons c rest ih =>
    have hfeed : Run.Gives T P (w.feedLogged c) (w.feed c) := (Run.gives_logAll hP _).bind (Run.gives_pure _)
    have hfirst : first.or (((c :: rest).head?).map Commit.timestamp) =
        (some (first.getD c.timestamp)).or (rest.head?.map Commit.timestamp) := by
      cases first <;> rfl
    rw [hfirst, List.map_cons, along]
    exact (Run.gives_pure c).bind ((Run.gives_checkpoint hcalm _).bind (hfeed.bind (ih (w.feed c) _)))

/-- The churn of commits is that of the walk along them, filled up with the tracked paths if there are any. -/
theorem gives_ofCommits (hP : Run.IsSilent P) (hcalm : T → ∀ s, P s → (HasSession.session s).cancelled = false)
    (commits : List Commit) (tracked : Option (List String)) :
    Run.Gives T P (ChurnHistory.ofCommits (commits.map pure) tracked) (ofCommits commits tracked).history := by
  have hcompleted : Run.Gives T P
      ((commits.foldl feed {}).completed (commits.head?.map Commit.timestamp) tracked) (ofCommits commits tracked) := by
    unfold completed ofCommits
    cases tracked with
    | none => exact Run.gives_pure _
    | some paths =>
      cases commits.head? with
      | none => exact Run.gives_pure _
      | some first =>
        dsimp only [Option.map_some]
        split
        · exact (Run.gives_log hP _ _).bind (Run.gives_pure _)
        · exact Run.gives_pure _
  unfold ChurnHistory.ofCommits
  refine (gives_along hP hcalm {} none commits).bind ?_
  exact hcompleted.bind ((Run.gives_log hP _ _).bind (Run.gives_pure _))

end Runs

end Walk

namespace Triage

variable {r : Reader} {name : String} {revisions : List (Revision f)} {store : ObjectStore f}

/-- If the log prints the newest revisions of a history, and the limit on their number can be written, the churn is
that of the walk along them. -/
theorem gives_readHistory {T : Prop} (t : Triage) (h : r.repository.Shows name revisions store)
    (hT : T → r.repository.Answers name revisions store) {last : Revision f} (hlast : revisions.getLast? = some last)
    {older newest : List (Revision f)} (hparts : revisions = older ++ newest) (hne : newest ≠ [])
    (hprints : r.repository.Prints (.log (Reader.askedLimit (t.settings .gitMaxCommits)) last.sha)
      (Utf8.encodeChars (Revision.log (Revision.lastTree .empty older) newest)))
    (hlog : T → r.repository.Succeeds (.log (Reader.askedLimit (t.settings .gitMaxCommits)) last.sha))
    (hlimit : T → Reader.checkLimit (t.settings .gitMaxCommits) = .ok ()) :
    Run.Gives T (Conversation.IsReady T) (t.readHistory r name)
      (some (Walk.ofWindow (Revision.replayed store.content r.limits (Revision.lastTree .empty older) newest)
        last.tree.files).history) := by
  refine (Reader.gives_commits h hT hlast hparts hprints hlog hlimit).bind ?_
  have hwindow := Revision.isWindow_replayed h.isHistory hparts hne store.content r.limits
  obtain ⟨c, hc, hsha⟩ := Walk.exists_last_of_isWindow hlast hwindow
  generalize Revision.replayed store.content r.limits (Revision.lastTree .empty older) newest = commits at hc ⊢
  obtain ⟨first, hfirst⟩ : ∃ first, commits.head? = some first := by
    cases commits with
    | nil => cases hc
    | cons first _ => exact ⟨first, rfl⟩
  have hchurn : ∀ tracked, Run.Gives T (Conversation.IsReady T)
      (do return some (← ChurnHistory.ofCommits (commits.map pure) tracked))
      (some (Walk.ofCommits commits tracked).history) := fun tracked =>
    (Walk.gives_ofCommits Reader.isSilent_isReady (fun ht s hs => hs.2 ht) commits tracked).bind (Run.gives_pure _)
  rw [Walk.ofWindow, hfirst, hc, Option.any_some]
  dsimp only
  split
  · exact (Run.gives_pure none).bind (hchurn none)
  · rw [hsha]
    exact ((Reader.gives_listFiles h hT hlast).map some).bind (hchurn _)

/-- The churn of a history is that of a walk that covers the tree of the last revision; there is none if there
are no revisions. -/
theorem ensures_readHistory (t : Triage) (h : r.repository.Shows name revisions store) :
    Run.Ensures Conversation.IsQuiet (t.readHistory r name) fun churn =>
      (revisions = [] ∧ churn = none) ∨ ∃ (last : Revision f) (walk : Walk),
        revisions.getLast? = some last ∧ churn = some walk.history ∧
          walk.history.head = some last.sha ∧ walk.Covers last.tree := by
  by_cases hnone : revisions = []
  · subst hnone
    have hchurn : Run.Gives False (Conversation.IsReady False) (t.readHistory r name) none :=
      (Reader.gives_commits_nil h (t.settings .gitMaxCommits)).bind (Run.gives_pure none)
    exact (Reader.ensures_of_gives hchurn).imp fun churn hchurn => .inl ⟨rfl, hchurn⟩
  · obtain ⟨last, hlast⟩ := Option.ne_none_iff_exists'.1 (List.getLast?_eq_none_iff.not.2 hnone)
    obtain ⟨older, newest, hparts, hne, hprints⟩ := h.log last hlast (Reader.askedLimit (t.settings .gitMaxCommits))
    have hchurn := t.gives_readHistory h False.elim hlast hparts hne hprints False.elim False.elim
    refine (Reader.ensures_of_gives hchurn).imp fun churn hchurn => .inr ⟨last, _, hlast, hchurn, ?_⟩
    have hwindow := Revision.isWindow_replayed h.isHistory hparts hne store.content r.limits
    exact (Walk.covers_ofWindow h.hasParents hlast hwindow).symm

end Triage

end Hotspots
