import Hotspots.Proofs.Git.Undisturbed
import Hotspots.Proofs.Scan.StruckScoring
import Hotspots.Proofs.Triage.Inclusion

/-!
# An analysis that is cancelled

An analysis looks at its mark before each commit of the walk, before the contents are read, before each file or in
each task, after a pool, and before the ranking. It may be cancelled before it starts, while any command runs, while
any file is analyzed, and in each stretch between two looks. However often and wherever that is, no work-list comes
out, if there are commits at all: the analysis ends with the cancellation, or in the way in which it ends if it is
never cancelled (`calculateAmid_cancelled`).
-/

namespace Hotspots

open Run (isMarked)

/-! ## The walk -/

namespace Walk

variable {σ : Type} [HasSession σ] {R : σ → σ → Prop}

/-- Commits as they arrive, where the run may be cancelled before each of them. -/
def arrivals (cancels : Nat → Bool) (commits : List Commit) : List (Run σ Commit) :=
  commits.mapIdx fun n c => do
    Run.strike (cancels n)
    return c

/-- Commits that arrive in a run that is never cancelled just arrive. -/
theorem arrivals_never (commits : List Commit) :
    (arrivals (fun _ => false) commits : List (Run σ Commit)) = commits.map pure := by
  induction commits with
  | nil => rfl
  | cons c rest ih =>
    rw [arrivals, List.mapIdx_cons, List.map_cons, ← ih]
    rfl

variable [LawfulSession σ]

/-- Commits are walked unless the run is cancelled. -/
theorem follows_along (hR : Run.IsCourse R) (w : Walk) (first : Option Int) (cancels : Nat → Bool)
    (commits : List Commit) :
    Run.Follows R (w.along first (arrivals cancels commits)) (w.along first (arrivals (fun _ => false) commits)) := by
  induction commits generalizing w first cancels with
  | nil => exact Run.follows_pure hR _
  | cons c rest ih =>
    have harrival : Run.Follows R (do Run.strike (cancels 0); return c : Run σ Commit)
        (do Run.strike false; return c) := (Run.follows_strike hR _).bind hR fun _ => Run.follows_pure hR _
    have hfeed : ∀ c' : Commit, Run.Follows R (w.feedLogged c' : Run σ Walk) (w.feedLogged c') := fun c' =>
      (Run.follows_logAll hR _).bind hR fun _ => Run.follows_pure hR _
    rw [arrivals, arrivals, List.mapIdx_cons, List.mapIdx_cons, along, along]
    exact harrival.bind hR fun c' => (Run.follows_checkpoint hR _).bind hR fun _ => (hfeed c').bind hR fun next =>
      ih next _ fun n => cancels (n + 1)

/-- A walk that comes to its end was cancelled before none of its commits. -/
theorem not_cancels_of_returns_along {w : Walk} {first : Option Int} {cancels : Nat → Bool} {commits : List Commit}
    {s s' : σ} {result : Walk × Option Int} (h : (w.along first (arrivals cancels commits)).Returns s result s') :
    ∀ n < commits.length, cancels n = false := by
  induction commits generalizing w first cancels s with
  | nil => exact fun n hn => absurd hn (Nat.not_lt_zero n)
  | cons c rest ih =>
    rw [arrivals, List.mapIdx_cons, along] at h
    obtain ⟨c', s₁, harrival, h⟩ := Run.returns_bind.1 h
    obtain ⟨_, s₂, hcheckpoint, h⟩ := Run.returns_bind.1 h
    obtain ⟨next, s₃, hfeed, h⟩ := Run.returns_bind.1 h
    obtain ⟨_, s₀, hstrike, harrival⟩ := Run.returns_bind.1 harrival
    obtain ⟨rfl, rfl⟩ := Run.returns_pure.1 harrival
    obtain ⟨hcalm, rfl⟩ := Run.returns_checkpoint.1 hcheckpoint
    rw [Run.returns_strike] at hstrike
    intro n hn
    cases n with
    | zero =>
      by_contra hnow
      rw [Bool.not_eq_false] at hnow
      rw [if_pos hnow] at hstrike
      rw [← hstrike, show (HasSession.session (Run.marked s)).cancelled = true from Run.isMarked_marked s] at hcalm
      cases hcalm
    | succ n => exact ih h n (Nat.lt_of_succ_lt_succ hn)

/-- The tracked paths are opened whether or not the run is cancelled. -/
theorem follows_completed (hR : Run.IsCourse R) (w : Walk) (first : Option Int) (tracked : Option (List String)) :
    Run.Follows R (w.completed first tracked : Run σ Walk) (w.completed first tracked) := by
  unfold completed
  split
  · dsimp only
    split
    · exact (Run.follows_log hR _ _).bind hR fun _ => Run.follows_pure hR _
    · exact Run.follows_pure hR _
  · exact Run.follows_pure hR _

end Walk

/-- The churn of commits is found unless the run is cancelled. -/
theorem ChurnHistory.follows_ofCommits {σ : Type} [HasSession σ] [LawfulSession σ] {R : σ → σ → Prop}
    (hR : Run.IsCourse R) (cancels : Nat → Bool) (commits : List Commit) (tracked : Option (List String)) :
    Run.Follows R (ofCommits (Walk.arrivals cancels commits) tracked)
      (ofCommits (Walk.arrivals (fun _ => false) commits) tracked) := by
  refine (Walk.follows_along hR _ _ _ _).bind hR fun ⟨walk, first⟩ => ?_
  refine (Walk.follows_completed hR _ _ _).bind hR fun full => ?_
  exact (Run.follows_log hR _ _).bind hR fun _ => Run.follows_pure hR _

namespace Triage

open Conversation (Notes isCourse_notes notes_of_runs_eq)

variable {t : Triage} {repository : Repository}

/-! ## An analysis with moments -/

/-- A stretch between two looks at the mark. -/
inductive Stretch where
  /-- Before the look at a commit, the commits counted from 0, or after the last one. -/
  | commit (n : Nat)
  /-- Before the look at a file, the files counted from 0, or after the last one. -/
  | file (n : Nat)
  /-- Before the look at the ranking. -/
  | scored
  deriving DecidableEq

/-- An analysis whose engine never cancels the run. -/
def undisturbed (t : Triage) : Triage := { t with engine := { t.engine with cancels := fun _ => false } }

/-- The churn of a revision, where the run may be cancelled between the commits of the walk. -/
def readHistoryAmid (t : Triage) (cancels : Stretch → Bool) (r : Reader) (revision : String) :
    Talk (Option ChurnHistory) := do
  let commits ← r.commits revision (t.settings .gitMaxCommits)
  match commits.head?, commits.getLast? with
  | some first, some last =>
    let tracked ← if first.isRoot then pure none else some <$> r.listFiles last.sha
    let churn ← ChurnHistory.ofCommits (Walk.arrivals (fun n => cancels (.commit n)) commits) tracked
    Run.strike (cancels (.commit commits.length))
    return some churn
  | _, _ => return none

/-- The churn of a revision and the contents that are scored, where the run may be cancelled on the way. -/
def readAmid (t : Triage) (cancels : Stretch → Bool) (repository : Repository) (path revision : String) :
    Talk (Option (ChurnHistory × Scorer.Snapshot)) := do
  let r ← Reader.openAt repository path (t.settings .gitTimeoutSeconds) (renameLimits t.settings)
  match ← Run.phase "history" (t.readHistoryAmid cancels r revision) with
  | none => return none
  | some churn =>
    Run.checkpoint "snapshot"
    let snapshot ← Run.phase "snapshot" (t.readSnapshot r churn)
    return some (churn, snapshot)

/-- The findings of files, where the run may be cancelled between the files. -/
def scoreAmid (t : Triage) (cancels : Stretch → Bool) (maxFileSize : Int) (snapshot : Scorer.Snapshot) : Talk Scores :=
  scoring ((t.scorer maxFileSize).scoreAllAmid (fun n => cancels (.file n)) snapshot true)

/-- The work-list of churn and contents, where the run may be cancelled on the way. -/
def rankAmid (t : Triage) (cancels : Stretch → Bool) (churn : ChurnHistory) (snapshot : Scorer.Snapshot) :
    Talk (List WorkItem) := do
  Reader.close
  let maxFileSize ← Run.ofFault t.settings.maxFileSizeBytes
  let scores ← Run.phase "scoring" (t.scoreAmid cancels maxFileSize snapshot)
  Run.strike (cancels .scored)
  Run.checkpoint "ranking"
  Run.phase "ranking" (t.rank churn scores)

/-- The work-list of a revision of a repository, where the run may be cancelled in any stretch between two looks at
the mark. -/
def calculateAmid (t : Triage) (cancels : Stretch → Bool) (repository : Repository) (path revision : String) :
    Talk (List WorkItem) := do
  match ← t.readAmid cancels repository path revision with
  | none => return []
  | some (churn, snapshot) => t.rankAmid cancels churn snapshot

/-- The churn of a revision is read as it is if the run is never cancelled on the way. -/
theorem readHistoryAmid_never (t : Triage) : t.readHistoryAmid (fun _ => false) = t.readHistory := by
  funext r revision
  simp only [readHistoryAmid, readHistory, Walk.arrivals_never]
  rfl

/-- Files are scored as they are if the run is never cancelled on the way. -/
theorem scoreAmid_never (t : Triage) : t.scoreAmid (fun _ => false) = t.score := by
  funext maxFileSize snapshot
  rw [scoreAmid, Scorer.scoreAllAmid_never]
  rfl

/-- An analysis that is never cancelled between two looks is the analysis as it is. -/
theorem calculateAmid_never (t : Triage) : t.calculateAmid (fun _ => false) = t.calculate := by
  funext repository path revision
  simp only [calculateAmid, readAmid, calculate, readHistoryAmid_never, bind_assoc]
  refine bind_congr fun r => bind_congr fun churn? => ?_
  cases churn? with
  | none => rfl
  | some churn =>
    simp only [bind_assoc, afterHistory, rankAmid, scoreAmid_never]
    rfl

/-! ## What the phases follow -/

/-- The churn of a revision is read unless the run is cancelled. -/
theorem follows_readHistoryAmid (t : Triage) (cancels : Stretch → Bool) (r : Reader) (revision : String) :
    Run.Follows (Notes r.repository) (t.readHistoryAmid cancels r revision)
      (t.undisturbed.readHistoryAmid (fun _ => false) r.undisturbed revision) := by
  have hR := isCourse_notes r.repository
  refine (Reader.follows_commits r revision _).bind hR fun commits => ?_
  have hwalk : ∀ tracked, Run.Follows (Notes r.repository)
      (do let churn ← ChurnHistory.ofCommits (Walk.arrivals (fun n => cancels (.commit n)) commits) tracked
          Run.strike (cancels (.commit commits.length))
          return some churn : Talk (Option ChurnHistory))
      (do let churn ← ChurnHistory.ofCommits (Walk.arrivals (fun _ => false) commits) tracked
          Run.strike false
          return some churn) := fun tracked =>
    (ChurnHistory.follows_ofCommits hR _ commits tracked).bind hR fun churn =>
      (Run.follows_strike hR _).bind hR fun _ => Run.follows_pure hR _
  cases commits.head? with
  | none => exact Run.follows_pure hR _
  | some first =>
    cases commits.getLast? with
    | none => exact Run.follows_pure hR _
    | some last =>
      dsimp only
      split
      · exact (Run.follows_pure hR _).bind hR hwalk
      · exact ((Reader.follows_listFiles r _).map hR some).bind hR hwalk

/-- An engine that never cancels the run selects the same files. -/
theorem scorablePaths_undisturbed (t : Triage) (tracked : List (String × String)) (paths : List String) :
    t.undisturbed.scorablePaths tracked paths = t.scorablePaths tracked paths := by
  have hsame : t.undisturbed.isLeftOut = t.isLeftOut := rfl
  induction paths with
  | nil => rfl
  | cons path rest ih => rw [scorablePaths, scorablePaths, ih, hsame]

/-- The contents that are scored are read whether or not the run is cancelled. -/
theorem follows_readSnapshot (t : Triage) (r : Reader) (churn : ChurnHistory) :
    Run.Follows (Notes r.repository) (t.readSnapshot r churn) (t.undisturbed.readSnapshot r.undisturbed churn) := by
  have hR := isCourse_notes r.repository
  refine (Reader.follows_treeEntries r _).bind hR fun tracked => ?_
  rw [scorablePaths_undisturbed]
  refine (Run.follows_ofExcept hR _).bind hR fun paths => (Reader.follows_snapshot r _ _).bind hR fun contents => ?_
  exact (Run.follows_log hR _ _).bind hR fun _ => Run.follows_pure hR _

/-- Churn and contents are read unless the run is cancelled. -/
theorem follows_readAmid (t : Triage) (cancels : Stretch → Bool) (repository : Repository) (path revision : String) :
    Run.Follows (Notes repository) (t.readAmid cancels repository path revision)
      (t.undisturbed.readAmid (fun _ => false) repository.undisturbed path revision) := by
  have hR := isCourse_notes repository
  refine Reader.follows_openAt_bind (fun r hr => ?_) _ _ _
  subst hr
  refine ((follows_readHistoryAmid t cancels r revision).phase hR "history").bind hR fun churn? => ?_
  cases churn? with
  | none => exact Run.follows_pure hR _
  | some churn =>
    refine (Run.follows_checkpoint hR _).bind hR fun _ => ?_
    exact ((follows_readSnapshot t r churn).phase hR "snapshot").bind hR fun _ => Run.follows_pure hR _

/-- Files are scored unless the run is cancelled. -/
theorem follows_scoreAmid (t : Triage) (repository : Repository) (cancels : Stretch → Bool) (maxFileSize : Int)
    (snapshot : Scorer.Snapshot) :
    Run.Follows (Notes repository) (t.scoreAmid cancels maxFileSize snapshot)
      (t.undisturbed.scoreAmid (fun _ => false) maxFileSize snapshot) :=
  ((t.scorer maxFileSize).follows_scoreAllAmid _ snapshot true).within
    (fun _ _ hmark => notes_of_runs_eq rfl hmark) (fun _ => rfl) fun _ _ => rfl

/-- The work-list is made whether or not the run is cancelled. -/
theorem follows_rank (t : Triage) (repository : Repository) (churn : ChurnHistory) (scores : Scores) :
    Run.Follows (Notes repository) (t.rank churn scores) (t.undisturbed.rank churn scores) := by
  have hR := isCourse_notes repository
  change Run.Follows _ (Worklist.rank _ _ _) (Worklist.rank _ _ _)
  unfold Worklist.rank
  split
  · exact Run.follows_pure hR _
  · exact (Run.follows_ofFault hR _).bind hR fun _ => (Run.follows_log hR _ _).bind hR fun _ => Run.follows_pure hR _

/-- Contents are scored and ranked unless the run is cancelled. -/
theorem follows_rankAmid (t : Triage) (repository : Repository) (cancels : Stretch → Bool) (churn : ChurnHistory)
    (snapshot : Scorer.Snapshot) :
    Run.Follows (Notes repository) (t.rankAmid cancels churn snapshot)
      (t.undisturbed.rankAmid (fun _ => false) churn snapshot) := by
  have hR := isCourse_notes repository
  refine (Reader.follows_close _).bind hR fun _ => (Run.follows_ofFault hR _).bind hR fun maxFileSize => ?_
  refine ((follows_scoreAmid t repository cancels maxFileSize snapshot).phase hR "scoring").bind hR fun scores => ?_
  refine (Run.follows_strike hR _).bind hR fun _ => (Run.follows_checkpoint hR _).bind hR fun _ => ?_
  exact (follows_rank t repository churn scores).phase hR "ranking"

/-- An analysis follows one that is never cancelled. -/
theorem follows_calculateAmid (t : Triage) (cancels : Stretch → Bool) (repository : Repository)
    (path revision : String) :
    Run.Follows (Notes repository) (t.calculateAmid cancels repository path revision)
      (t.undisturbed.calculate repository.undisturbed path revision) := by
  have hR := isCourse_notes repository
  rw [← calculateAmid_never]
  refine (follows_readAmid t cancels repository path revision).bind hR fun read? => ?_
  cases read? with
  | none => exact Run.follows_pure hR _
  | some read => exact follows_rankAmid t repository cancels read.1 read.2

/-! ## A run that gives a work-list -/

/-- The commits of a revision, as an analysis lists them. -/
def listing (t : Triage) (repository : Repository) (path revision : String) : Talk (List Commit) := do
  let r ← Reader.openAt repository path (t.settings .gitTimeoutSeconds) (renameLimits t.settings)
  Run.log .info ("Phase " ++ "history" ++ " started")
  r.commits revision (t.settings .gitMaxCommits)

/-- A run that is never cancelled: not before it starts, not while one of its commands runs, not while a file is
analyzed, and not in a stretch between two looks at the mark. -/
structure NeverCancelled (t : Triage) (repository : Repository) (cancels : Stretch → Bool) (c c' : Conversation)
    (commits : List Commit) (snapshot : Scorer.Snapshot) : Prop where
  start : c.session.cancelled = false
  commands : ∀ name time, c.timesRun name < time → time ≤ c'.timesRun name → repository.cancels name time = false
  commits : ∀ n ≤ commits.length, cancels (.commit n) = false
  files : ∀ n ≤ snapshot.length, cancels (.file n) = false
  analyses : ∀ maxFileSize, t.settings.maxFileSizeBytes = .ok maxFileSize →
    ∀ file ∈ snapshot, (t.scorer maxFileSize).cancelsAt file = false
  scored : cancels .scored = false

/-- A history that was read has listed commits. There is churn unless there are none, and then the run was cancelled
before none of them; if it was cancelled after them, the mark is there. -/
theorem exists_commits_of_returns {cancels : Stretch → Bool} {r : Reader} {revision : String} {c c' : Conversation}
    {churn? : Option ChurnHistory} (h : (t.readHistoryAmid cancels r revision).Returns c churn? c') :
    ∃ commits c₁, (r.commits revision (t.settings .gitMaxCommits)).Returns c commits c₁ ∧
      match churn? with
      | none => commits = []
      | some _ => (∀ n < commits.length, cancels (.commit n) = false) ∧
          (cancels (.commit commits.length) = true → isMarked c' = true) := by
  obtain ⟨commits, c₁, hcommits, h⟩ := Run.returns_bind.1 h
  refine ⟨commits, c₁, hcommits, ?_⟩
  have hwalk : ∀ {tracked : Option (List String)} {c₂ : Conversation},
      (do let churn ← ChurnHistory.ofCommits (Walk.arrivals (fun n => cancels (.commit n)) commits) tracked
          Run.strike (cancels (.commit commits.length))
          return some churn : Talk (Option ChurnHistory)).Returns c₂ churn? c' →
        ∃ churn, churn? = some churn ∧ (∀ n < commits.length, cancels (.commit n) = false) ∧
          (cancels (.commit commits.length) = true → isMarked c' = true) := by
    intro tracked c₂ h
    obtain ⟨churn, c₃, hchurn, h⟩ := Run.returns_bind.1 h
    obtain ⟨_, c₄, hstrike, h⟩ := Run.returns_bind.1 h
    obtain ⟨rfl, rfl⟩ := Run.returns_pure.1 h
    obtain ⟨result, c₅, halong, -⟩ := Run.returns_bind.1 hchurn
    rw [Run.returns_strike] at hstrike
    refine ⟨churn, rfl, Walk.not_cancels_of_returns_along halong, fun hnow => ?_⟩
    rw [← hstrike, if_pos hnow, Run.isMarked_marked]
  cases hfirst : commits.head? with
  | none =>
    rw [hfirst] at h
    obtain ⟨rfl, -⟩ := Run.returns_pure.1 h
    exact List.head?_eq_none_iff.1 hfirst
  | some first =>
    cases hlast : commits.getLast? with
    | none =>
      rw [hfirst, hlast] at h
      obtain ⟨rfl, -⟩ := Run.returns_pure.1 h
      exact List.getLast?_eq_none_iff.1 hlast
    | some last =>
      rw [hfirst, hlast] at h
      dsimp only at h
      obtain ⟨churn, rfl, hcommit⟩ : ∃ churn, churn? = some churn ∧ _ := by
        split at h
        · obtain ⟨tracked, c₂, -, h⟩ := Run.returns_bind.1 h
          exact hwalk h
        · obtain ⟨tracked, c₂, -, h⟩ := Run.returns_bind.1 h
          exact hwalk h
      exact hcommit

/-- Where churn and contents were read, the commits were listed, and the run was cancelled in no stretch of the
walk. -/
theorem exists_listing {cancels : Stretch → Bool} {path revision : String} {c c' : Conversation}
    {read? : Option (ChurnHistory × Scorer.Snapshot)}
    (h : (t.readAmid cancels repository path revision).Returns c read? c') :
    ∃ commits c₁, (t.listing repository path revision).Returns c commits c₁ ∧
      match read? with
      | none => commits = []
      | some _ => ∀ n ≤ commits.length, cancels (.commit n) = false := by
  obtain ⟨r, c₁, hopen, h⟩ := Run.returns_bind.1 h
  obtain ⟨churn?, c₂, hphase, h⟩ := Run.returns_bind.1 h
  obtain ⟨c₃, hhistory, rfl⟩ := Run.returns_phase.1 hphase
  obtain ⟨commits, c₄, hcommits, hwalked⟩ := exists_commits_of_returns hhistory
  refine ⟨commits, c₄,
    Run.returns_bind.2 ⟨r, c₁, hopen, Run.returns_bind.2 ⟨(), _, Run.returns_log.2 rfl, hcommits⟩⟩, ?_⟩
  cases churn? with
  | none =>
    obtain ⟨rfl, -⟩ := Run.returns_pure.1 h
    exact hwalked
  | some churn =>
    obtain ⟨_, c₅, hcheckpoint, h⟩ := Run.returns_bind.1 h
    obtain ⟨snapshot, c₆, -, h⟩ := Run.returns_bind.1 h
    obtain ⟨rfl, -⟩ := Run.returns_pure.1 h
    obtain ⟨hcalm, -⟩ := Run.returns_checkpoint.1 hcheckpoint
    intro n hn
    rcases Nat.lt_or_eq_of_le hn with hlt | rfl
    · exact hwalked.1 n hlt
    · by_contra hnow
      have hmark : isMarked c₃ = true := hwalked.2 (Bool.not_eq_false _ ▸ hnow)
      rw [show (HasSession.session (Run.logged _ c₃)).cancelled = isMarked c₃ from Run.isMarked_logged _ c₃] at hcalm
      rw [hmark] at hcalm
      cases hcalm

/-- Making the work-list leaves a run alone that is not cancelled. -/
theorem ensures_rank_calm (t : Triage) (churn : ChurnHistory) (scores : Scores) :
    Run.Ensures (fun c : Conversation => isMarked c = false) (Run.phase "ranking" (t.rank churn scores))
      fun _ => True := by
  have hsilent : Run.IsSilent fun c : Conversation => isMarked c = false := fun entries c hc =>
    (Run.isMarked_logged entries c).trans hc
  refine Run.Ensures.phase hsilent ?_ "ranking"
  change Run.Ensures _ (Worklist.rank _ _ _) _
  unfold Worklist.rank
  split
  · exact Run.ensures_pure trivial
  · exact (Run.ensures_ofFault _).bind fun _ _ => (Run.ensures_log hsilent _ _).bind fun _ _ =>
      Run.ensures_pure trivial

/-- A run that gives the work-list of contents was not cancelled in a stretch between the files, on a file, or after
the last one, and is not cancelled in the end. -/
theorem not_cancels_of_returns_rankAmid {cancels : Stretch → Bool} {churn : ChurnHistory}
    {snapshot : Scorer.Snapshot} {c c' : Conversation} {list : List WorkItem}
    (h : (t.rankAmid cancels churn snapshot).Returns c list c') :
    isMarked c' = false ∧ (∀ n ≤ snapshot.length, cancels (.file n) = false) ∧ cancels .scored = false ∧
      ∀ maxFileSize, t.settings.maxFileSizeBytes = .ok maxFileSize →
        ∀ file ∈ snapshot, (t.scorer maxFileSize).cancelsAt file = false := by
  obtain ⟨_, c₁, -, h⟩ := Run.returns_bind.1 h
  obtain ⟨maxFileSize, c₂, hsize, h⟩ := Run.returns_bind.1 h
  obtain ⟨hmax, rfl⟩ := Run.returns_ofFault.1 hsize
  obtain ⟨scores, c₃, hphase, h⟩ := Run.returns_bind.1 h
  obtain ⟨_, c₄, hstrike, h⟩ := Run.returns_bind.1 h
  obtain ⟨_, c₅, hcheckpoint, hrank⟩ := Run.returns_bind.1 h
  obtain ⟨hcalm, rfl⟩ := Run.returns_checkpoint.1 hcheckpoint
  obtain ⟨c₆, hscoring, rfl⟩ := Run.returns_phase.1 hphase
  unfold scoreAmid scoring at hscoring
  obtain ⟨st, hscores, rfl⟩ := Run.returns_within.1 hscoring
  rw [Run.returns_strike] at hstrike
  have hcalm₄ : isMarked c₄ = false := hcalm
  have hscored : cancels .scored = false := by
    by_contra hnow
    rw [← hstrike, if_pos (Bool.not_eq_false _ ▸ hnow), Run.isMarked_marked] at hcalm₄
    cases hcalm₄
  have hst : isMarked st = false := by
    rw [← hstrike, if_neg (by simp [hscored]), Run.isMarked_logged] at hcalm₄
    exact hcalm₄
  have hnever : ¬(isMarked ({ session := (Run.logged _ c₁).session } : Scoring) = true ∨
      (∃ n ≤ snapshot.length, cancels (.file n) = true) ∨
      ∃ file ∈ snapshot, (t.scorer maxFileSize).cancelsAt file = true) := fun hnow => by
    rw [Scorer.marked_of_returns_scoreAllAmid hscores hnow] at hst
    cases hst
  simp only [not_or, not_exists, not_and, Bool.not_eq_true] at hnever
  refine ⟨(ensures_rank_calm t churn scores c₄ list c' hcalm₄ hrank).2, hnever.2.1, hscored, fun size hsize' => ?_⟩
  rw [hmax] at hsize'
  injection hsize' with hsize'
  exact hsize' ▸ hnever.2.2

/-- A cancelled analysis never gives a work-list, if there are commits. The run may be cancelled before it starts,
while any of its commands runs, while any file is analyzed, and in any stretch between two looks at the mark. The
analysis ends with the cancellation, or in the way in which it ends if it is never cancelled; and if it ends with a
work-list, it was cancelled nowhere. -/
theorem calculateAmid_cancelled (t : Triage) (repository : Repository) (path revision : String)
    (cancels : Stretch → Bool) (c : Conversation)
    (hlisted : ∀ c', ¬(t.listing repository path revision).Returns c [] c') :
    t.calculateAmid (fun _ => false) = t.calculate ∧
    ((∃ phase, (Run.exec (t.calculateAmid cancels repository path revision) c).1 = .error (.cancelled phase)) ∨
      (Run.exec (t.calculateAmid cancels repository path revision) c).1 =
        (Run.exec (t.undisturbed.calculate repository.undisturbed path revision) (Run.calm c)).1) ∧
    ∀ list c', (t.calculateAmid cancels repository path revision).Returns c list c' →
      ∃ commits c₁ churn snapshot c₂, (t.listing repository path revision).Returns c commits c₁ ∧
        (t.readAmid cancels repository path revision).Returns c (some (churn, snapshot)) c₂ ∧
        t.NeverCancelled repository cancels c c' commits snapshot := by
  have hfollows := follows_calculateAmid t cancels repository path revision
  refine ⟨t.calculateAmid_never, (hfollows c).2.imp_right fun hsame => by rw [hsame], fun list c' h => ?_⟩
  obtain ⟨hnotes, -⟩ := hfollows.of_returns h
  obtain ⟨read?, c₂, hread, h⟩ := Run.returns_bind.1 h
  obtain ⟨commits, c₁, hlisting, hwalked⟩ := exists_listing hread
  cases read? with
  | none =>
    have hnone : commits = [] := hwalked
    subst hnone
    exact (hlisted c₁ hlisting).elim
  | some read =>
    obtain ⟨churn, snapshot⟩ := read
    obtain ⟨hcalm, hfiles, hscored, hanalyses⟩ := not_cancels_of_returns_rankAmid h
    have hnot : ∀ {b : Bool}, (b = true → isMarked c' = true) → b = false := by
      intro b hb
      cases b with
      | false => rfl
      | true =>
        rw [hb rfl] at hcalm
        cases hcalm
    exact ⟨commits, c₁, churn, snapshot, c₂, hlisting, hread,
      { start := hnot hnotes.mark_stays
        commands := fun name time hlow hhigh => hnot (hnotes.marked_of_cancels name time hlow hhigh)
        commits := hwalked
        files := hfiles
        analyses := hanalyses
        scored := hscored }⟩

/-- An analysis that gives a work-list gives none if it is cancelled before its first file: it ends with the
cancellation. -/
theorem calculateAmid_cancelled_beforeFiles :
    let cancels : Stretch → Bool := fun stretch => decide (stretch = .file 0)
    (∀ c', ¬(newestOnly.listing cutOff "." "HEAD").Returns {} [] c') ∧
      (∃ list c', (newestOnly.calculate cutOff "." "HEAD").Returns {} list c') ∧
      (∀ list c', ¬(newestOnly.calculateAmid cancels cutOff "." "HEAD").Returns {} list c') ∧
      ∃ phase, (Run.exec (newestOnly.calculateAmid cancels cutOff "." "HEAD") {}).1 = .error (.cancelled phase) := by
  intro cancels
  have hlisted : ∀ c', ¬(newestOnly.listing cutOff "." "HEAD").Returns {} [] c' := by
    intro c' h
    have hone : (Run.exec (newestOnly.listing cutOff "." "HEAD") {}).1.toOption.map List.length = some 1 := by
      decide +kernel
    rw [show Run.exec _ _ = _ from h] at hone
    cases hone
  have hlist : (Run.exec (newestOnly.calculate cutOff "." "HEAD") {}).1.toOption.isSome = true := by decide +kernel
  obtain ⟨list, hlist⟩ := Option.isSome_iff_exists.1 hlist
  have hquiet : newestOnly.undisturbed = newestOnly ∧ cutOff.undisturbed = cutOff := ⟨rfl, rfl⟩
  obtain ⟨-, hend, hnever⟩ := calculateAmid_cancelled newestOnly cutOff "." "HEAD" cancels {} hlisted
  have hnone : ∀ list c', ¬(newestOnly.calculateAmid cancels cutOff "." "HEAD").Returns {} list c' := by
    intro list c' h
    obtain ⟨commits, c₁, churn, snapshot, c₂, -, -, hcalm⟩ := hnever list c' h
    cases hcalm.files 0 (Nat.zero_le _)
  refine ⟨hlisted, ⟨list, Run.exists_returns hlist⟩, hnone, hend.resolve_right fun hsame => ?_⟩
  have hlist' : (Run.exec (newestOnly.calculateAmid cancels cutOff "." "HEAD") {}).1.toOption = some list := by
    rw [hsame, hquiet.1, hquiet.2]
    exact hlist
  obtain ⟨c', h⟩ := Run.exists_returns hlist'
  exact hnone list c' h

end Triage

end Hotspots
