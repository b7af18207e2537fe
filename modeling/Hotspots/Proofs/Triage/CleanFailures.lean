import Hotspots.Proofs.Git.WellFormed
import Hotspots.Proofs.History.ChangeCounts
import Hotspots.Proofs.Ranking.WeightedTiers
import Hotspots.Proofs.Scan.GodClassRule
import Hotspots.Proofs.Triage.CancelledRun

/-!
# Failures of an analysis

An analysis of a well-formed repository asks the system whether there is one, to wait for its commands as long as they
may take, and to pass the revision on to them. It asks for the limit on the number of commits to be written, for the
largest size of a file to be cut to an integer, and for the weights to be held in machine words. Everything else in it
ends in a result or in a failure that this tool reports as its own, so that an analysis that can be run at all
(`Triage.IsRunnable`) fails in another way exactly if it comes to one of the six places with something that does not go
there (`Triage.IsRunnable.failsBeyond_calculate_iff`).
-/

namespace Hotspots

variable {f : ObjectFormat}

open Conversation (IsClear)
open Failure (IsTriage)

/-! ## The history -/

/-- The records of a walk along commits count no more than the changes of the commits and one more. -/
theorem Walk.changeCount_le_ofCommits (commits : List Commit) (tracked : Option (List String)) :
    ∀ r ∈ (ofCommits commits tracked).history.records,
      r.changeCount ≤ 1 + (commits.flatMap Commit.changes).length := by
  have hgrows : GrowsBy (commits.flatMap Commit.changes).length {} (ofCommits commits tracked) := by
    have halong := growsBy_foldl_feed {} commits
    unfold ofCommits
    split
    · exact halong.trans (growsBy_backfill _ _ _)
    · exact halong
  intro r hr
  rcases hgrows r hr with hnew | ⟨_, hnone, -⟩
  · exact hnew.2
  · cases hnone

namespace Triage

variable {t : Triage} {r : Reader} {repository : Repository} {path revision : String}

/-- The churn of commits is found unless the run is cancelled. -/
theorem ends_ofCommits (commits : List Commit) (tracked : Option (List String)) :
    Run.Ends IsClear (ChurnHistory.ofCommits (commits.map pure) tracked)
      (fun churn => churn = (Walk.ofCommits commits tracked).history) IsTriage := by
  have hcourse : Run.IsCourse fun s s' : Conversation => IsClear s → IsClear s' :=
    Run.isCourse_of_invariant Reader.isSilent_isClear fun _ h => h
  have hsilent : Run.IsSilent fun c : Conversation => Run.isMarked c = false := fun entries c hc =>
    (Run.isMarked_logged entries c).trans hc
  have hgives := Walk.gives_ofCommits (T := True) hsilent (fun _ _ h => h) commits tracked
  have hfollows := ChurnHistory.follows_ofCommits hcourse (fun _ => false) commits tracked
  rw [Walk.arrivals_never] at hfollows
  refine hfollows.ends (fun _ _ h => h) (fun s _ => ?_) fun _ => ⟨_, rfl⟩
  obtain ⟨s', hreturns⟩ := hgives.returns trivial (Run.calm s) (Run.isMarked_calm s)
  exact ⟨_, s', hreturns, rfl⟩

/-- Churn that was read from a repository: the last commit has the name of one, and the counts of changes fit in
machine words. -/
structure IsRead (f : ObjectFormat) (churn : ChurnHistory) : Prop where
  head : ∃ id : ObjectId f, churn.head = some id.text
  counts : ∀ record ∈ churn.records, record.changeCount < 2 ^ 64

/-- The churn of a revision is read, if it is passed on and the limit on the number of commits can be written. -/
theorem ends_readHistory (h : r.repository.IsWellFormed f)
    (hrevision : r.repository.Succeeds (.verify "HEAD") → r.repository.Starts (.verify revision))
    (hlimit : r.repository.Succeeds (.verify "HEAD") → r.repository.Succeeds (.verify revision) →
      Reader.checkLimit (t.settings .gitMaxCommits) = .ok ()) :
    Run.Ends IsClear (t.readHistory r revision) (fun churn? => ∀ churn ∈ churn?, IsRead f churn) IsTriage := by
  unfold readHistory
  refine (Reader.ends_commits h hrevision hlimit).bind fun commits ⟨hnames, hcommits⟩ => ?_
  split
  · next first last _ hlast =>
    obtain ⟨id, hid⟩ := hnames last (List.mem_of_getLast? hlast)
    have hchurn : ∀ tracked, Run.Ends IsClear (do return some (← ChurnHistory.ofCommits (commits.map pure) tracked))
        (fun churn? => ∀ churn ∈ churn?, IsRead f churn) IsTriage := by
      intro tracked
      refine (ends_ofCommits commits tracked).bind ?_
      rintro churn rfl
      refine Run.ends_pure ?_
      rintro _ ⟨⟩
      refine ⟨⟨id, ?_⟩, fun record hrecord => ?_⟩
      · rw [Walk.head_ofCommits hlast, hid]
      · have hcount := Walk.changeCount_le_ofCommits commits tracked record hrecord
        omega
    have hstarts : r.repository.Starts (.verify last.sha) := h.starts (.verify last.sha) (.inr ⟨id, hid⟩)
    split
    · exact (Run.ends_pure (Q := fun _ => True) trivial).bind fun tracked _ => hchurn tracked
    · have hfiles := Reader.ends_listFiles h (Reader.keeps_isClear _) hstarts
      exact (hfiles.map (R := fun _ => True) fun _ _ => trivial).bind fun tracked _ => hchurn tracked
  · exact Run.ends_pure nofun

/-! ## The contents -/

/-- Patterns that are texts are compared with every path. -/
theorem exists_anyMatches (path : String) (patterns : List String) :
    ∃ b, anyMatches path (patterns.map .text) = .ok b := by
  induction patterns with
  | nil => exact ⟨false, rfl⟩
  | cons pattern rest ih =>
    rw [List.map_cons, anyMatches]
    split
    · exact ⟨true, rfl⟩
    · exact ih

/-- An analysis with an engine that may be asked about every path and is never interrupted, with patterns that are texts
and with workers that make a pool. -/
structure IsRunnable (t : Triage) : Prop where
  patterns : ∃ patterns : List String, t.settings .excludePatterns = .list (patterns.map .text)
  answers : ∀ path, t.engine.failure? path = none
  not_interrupted : ∀ path source, t.engine.analyze path source ≠ .error .interrupted
  makesPool : Scorer.makesPool (t.settings .workers) = true

namespace IsRunnable

/-- It can be told of every path whether it is left out. -/
theorem exists_isLeftOut (ht : t.IsRunnable) (path : String) : ∃ b, t.isLeftOut path = .ok b := by
  obtain ⟨patterns, hpatterns⟩ := ht.patterns
  obtain ⟨excluded, hexcluded⟩ := exists_anyMatches path patterns
  have hanswer : t.engine.answer path = .ok (t.engine.supports path) := by rw [Engine.answer, ht.answers]
  have hexclude : isExcluded (t.settings .excludePatterns) path = .ok excluded := by
    rw [hpatterns]
    exact hexcluded
  rw [isLeftOut, hanswer]
  change ∃ b, (if t.engine.supports path = true then _ else _) = _
  split
  · exact ⟨excluded, by rw [hexclude]; rfl⟩
  · exact ⟨true, rfl⟩

/-- The files that are scored can be told from the others. -/
theorem exists_scorablePaths (ht : t.IsRunnable) (tracked : List (String × String)) (paths : List String) :
    ∃ selected, t.scorablePaths tracked paths = .ok selected := by
  induction paths with
  | nil => exact ⟨[], rfl⟩
  | cons path rest ih =>
    rw [scorablePaths]
    split
    · obtain ⟨leftOut, hleftOut⟩ := ht.exists_isLeftOut path
      obtain ⟨more, hmore⟩ := ih
      exact ⟨_, bind_eq_ok.2 ⟨leftOut, hleftOut, bind_eq_ok.2 ⟨more, hmore, rfl⟩⟩⟩
    · exact ih

/-- The contents that are scored are read unless one of them is not there. -/
theorem ends_readSnapshot (ht : t.IsRunnable) (h : r.repository.IsWellFormed f) {churn : ChurnHistory}
    (hchurn : IsRead f churn) : Run.Ends IsClear (t.readSnapshot r churn) (fun _ => True) IsTriage := by
  obtain ⟨id, hhead⟩ := hchurn.head
  have hstarts : r.repository.Starts (.verify (churn.head.getD "")) :=
    h.starts (.verify _) (.inr ⟨id, by rw [hhead]; rfl⟩)
  refine (Reader.ends_treeEntries h (Reader.keeps_isClear _) hstarts).bind fun tracked _ => ?_
  obtain ⟨selected, hselected⟩ := ht.exists_scorablePaths tracked (Reader.sorted (churn.liveByPath.map Prod.fst))
  have hpaths : Run.Ends IsClear (Run.ofExcept
      (t.scorablePaths tracked (Reader.sorted (churn.liveByPath.map Prod.fst)))) (fun _ => True) IsTriage := by
    rw [hselected]
    exact Run.ends_pure trivial
  refine hpaths.bind fun paths _ => (Reader.ends_snapshot h hstarts _).bind fun contents _ => ?_
  exact (Run.ends_log Reader.isSilent_isClear _ _).bind fun _ _ => Run.ends_pure trivial

/-- Files are scored unless the run is cancelled. -/
theorem ends_score (ht : t.IsRunnable) (maxFileSize : Int) (snapshot : Scorer.Snapshot) :
    Run.Ends (fun _ => True) (t.score maxFileSize snapshot) (fun _ => True) IsTriage := by
  have hordinary : (t.scorer maxFileSize).undisturbed.IsOrdinary :=
    { answers := fun path hinterrupted => nomatch (ht.answers path).symm.trans hinterrupted
      not_interrupted := ht.not_interrupted
      not_cancelled := fun _ => rfl }
  have hscores : Run.Ends (fun _ => True) ((t.scorer maxFileSize).scoreAll snapshot true) (fun _ => True)
      IsTriage := by
    -- The run may be cancelled at any time; the scores are those of a calm run if it comes to its end.
    have hfollows := (t.scorer maxFileSize).follows_scoreAllAmid (fun _ => false) snapshot true
    rw [Scorer.scoreAllAmid_never, Scorer.scoreAllAmid_never] at hfollows
    refine hfollows.ends (fun _ _ _ _ => trivial) (fun st _ => ?_) fun _ => ⟨_, rfl⟩
    obtain ⟨st', hreturns, -⟩ := Scorer.returns_scoreAll hordinary ht.makesPool snapshot true (Run.isMarked_calm st)
    exact ⟨_, st', hreturns, trivial⟩
  exact hscores.within (fun _ _ => trivial) fun _ _ hs => hs

end IsRunnable

/-! ## The six places -/

/-- What an analysis reads with a reader before it scores the first file. -/
def readFrom (t : Triage) (revision : String) (r : Reader) : Talk (Option (ChurnHistory × Scorer.Snapshot)) := do
  match ← Run.phase "history" (t.readHistory r revision) with
  | none => return none
  | some churn =>
    Run.checkpoint "snapshot"
    let snapshot ← Run.phase "snapshot" (t.readSnapshot r churn)
    return some (churn, snapshot)

/-- What an analysis reads before it scores the first file. -/
def read (t : Triage) (repository : Repository) (path revision : String) :
    Talk (Option (ChurnHistory × Scorer.Snapshot)) :=
  t.readAmid (fun _ => false) repository path revision

/-- The churn and the findings of which an analysis makes its work-list. -/
def found (t : Triage) (repository : Repository) (path revision : String) : Talk (Option (ChurnHistory × Scores)) := do
  match ← t.read repository path revision with
  | none => return none
  | some (churn, snapshot) => do
    Reader.close
    let maxFileSize ← Run.ofFault t.settings.maxFileSizeBytes
    let scores ← Run.phase "scoring" (t.score maxFileSize snapshot)
    Run.checkpoint "ranking"
    return some (churn, scores)

/-- An analysis opens the repository and reads from it. -/
theorem read_eq (t : Triage) (repository : Repository) (path revision : String) :
    t.read repository path revision =
      Reader.openAt repository path (t.settings .gitTimeoutSeconds) (renameLimits t.settings) >>=
        t.readFrom revision := by
  rw [read, readAmid, readHistoryAmid_never]
  rfl

/-- The candidates of which a work-list is made. -/
def candidatesOf (churn : ChurnHistory) (scores : Scores) : List Worklist.Candidate :=
  Worklist.candidates (churn.records.map fun r => (r.identity, r)) (scores.map fun (i, f) => (i, some f))

/-- An analysis ranks what it has found. -/
theorem calculate_eq (t : Triage) (repository : Repository) (path revision : String) :
    t.calculate repository path revision = t.found repository path revision >>= fun
      | none => return []
      | some (churn, scores) => Run.phase "ranking" (t.rank churn scores) := by
  rw [← calculateAmid_never, found, bind_assoc]
  refine bind_congr fun read? => ?_
  cases read? with
  | none => rfl
  | some read =>
    simp only [rankAmid, scoreAmid_never, bind_assoc]
    rfl

namespace IsRunnable

/-- The history and the contents are read, if the revision is passed on and the limit on the number of commits can be
written. Counts of changes fit in machine words. -/
theorem ends_readFrom (ht : t.IsRunnable) (h : r.repository.IsWellFormed f)
    (hrevision : r.repository.Succeeds (.verify "HEAD") → r.repository.Starts (.verify revision))
    (hlimit : r.repository.Succeeds (.verify "HEAD") → r.repository.Succeeds (.verify revision) →
      Reader.checkLimit (t.settings .gitMaxCommits) = .ok ()) :
    Run.Ends IsClear (t.readFrom revision r) (fun read? => ∀ churn snapshot, read? = some (churn, snapshot) →
      ∀ record ∈ churn.records, record.changeCount < 2 ^ 64) IsTriage := by
  have hsilent := Reader.isSilent_isClear
  refine ((ends_readHistory h hrevision hlimit).phase hsilent _).bind fun churn? hread => ?_
  cases churn? with
  | none => exact Run.ends_pure nofun
  | some churn =>
    refine (Run.ends_checkpoint (E := IsTriage) ⟨_, rfl⟩).bind fun _ _ => ?_
    refine ((ht.ends_readSnapshot h (hread churn rfl)).phase hsilent _).bind fun snapshot _ => Run.ends_pure ?_
    rintro _ _ ⟨⟩
    exact (hread churn rfl).counts

/-- What was read has counts of changes that fit in machine words, and leaves nothing to the helper. -/
theorem of_returns_read (ht : t.IsRunnable) (h : repository.IsWellFormed f)
    (hrevision : repository.HasCommits path → repository.Starts (.verify revision))
    (hlimit : repository.Knows path revision → Reader.checkLimit (t.settings .gitMaxCommits) = .ok ())
    {c c' : Conversation} {churn : ChurnHistory} {snapshot : Scorer.Snapshot}
    (hread : (t.read repository path revision).Returns c (some (churn, snapshot)) c') :
    (∀ record ∈ churn.records, record.changeCount < 2 ^ 64) ∧ c'.IsClear := by
  rw [read_eq] at hread
  obtain ⟨r, c₁, hopen, hfrom⟩ := Run.returns_bind.1 hread
  obtain ⟨rfl, hclear, -, hlocate, -, hgitDir⟩ := Reader.of_returns_openAt hopen
  have hends := ht.ends_readFrom h (fun hhead => hrevision ⟨hlocate, hgitDir, hhead⟩) fun hhead hknown =>
    hlimit ⟨⟨hlocate, hgitDir, hhead⟩, hknown⟩
  obtain ⟨hcounts, hclear'⟩ := hends.of_returns hclear hfrom
  exact ⟨hcounts churn snapshot rfl, hclear'⟩

/-- Reading fails beyond exactly if the system does not tell whether there is a repository, if it does not wait for the
commands of one, if it does not pass a revision on to one with commits, or if a revision is known whose commits are
asked for up to a limit that cannot be written. -/
theorem failsBeyond_read_iff (ht : t.IsRunnable) (h : repository.IsWellFormed f) (c : Conversation) :
    Run.FailsBeyond IsTriage (t.read repository path revision) c ↔ repository.refuses? path ≠ none ∨
      ((repository.locate path).isSome = true ∧ repository.waitFault? (t.settings .gitTimeoutSeconds) ≠ none) ∨
      (repository.HasCommits path ∧ ¬repository.Starts (.verify revision)) ∨
      (repository.Knows path revision ∧ Reader.checkLimit (t.settings .gitMaxCommits) ≠ .ok ()) := by
  rw [read_eq, Run.failsBeyond_bind, Reader.failsBeyond_openAt_iff h, ← or_assoc]
  by_cases hopens : repository.refuses? path ≠ none ∨
      (repository.locate path).isSome = true ∧ repository.waitFault? (t.settings .gitTimeoutSeconds) ≠ none
  · exact iff_of_true (.inl hopens) (.inl hopens)
  -- The reader is opened if there is a repository, and its commits are asked for in both of the other cases.
  have hasked : ∀ {r c'}, repository.HasCommits path → (Reader.openAt repository path
      (t.settings .gitTimeoutSeconds) (renameLimits t.settings)).Returns c r c' →
      Run.FailsBeyond IsTriage (r.commits revision (t.settings .gitMaxCommits))
        (Run.logged [⟨.info, "Phase " ++ "history" ++ " started"⟩] c') →
      Run.FailsBeyond IsTriage (t.readFrom revision r) c' := fun _ _ hfails =>
    Run.failsBeyond_bind.2 (.inl (Run.failsBeyond_phase.2 (Run.failsBeyond_bind.2 (.inl hfails))))
  obtain ⟨hrefuses, hwait⟩ := not_or.1 hopens
  have hopened : repository.HasCommits path → ∃ r c', (Reader.openAt repository path
      (t.settings .gitTimeoutSeconds) (renameLimits t.settings)).Returns c r c' ∧ r.repository = repository := by
    intro hcommits
    obtain ⟨r, c', hopen⟩ := Reader.exists_returns_openAt (not_not.1 hrefuses) hcommits.locate
      (not_not.1 fun hfault => hwait ⟨hcommits.locate, hfault⟩) hcommits.gitDir (renameLimits t.settings) c
    exact ⟨r, c', hopen, (Reader.of_returns_openAt hopen).1⟩
  refine or_congr_right ⟨?_, ?_⟩
  · rintro ⟨r, c', hopen, hfails⟩
    obtain ⟨rfl, hclear, -, hlocate, -, hgitDir⟩ := Reader.of_returns_openAt hopen
    by_contra hnever
    obtain ⟨hrevision, hlimit⟩ := not_or.1 hnever
    refine (ht.ends_readFrom h (fun hhead => ?_) fun hhead hknown => ?_).not_failsBeyond hclear hfails
    · exact not_and_not_right.1 hrevision ⟨hlocate, hgitDir, hhead⟩
    · exact not_and_not_right.1 hlimit ⟨⟨hlocate, hgitDir, hhead⟩, hknown⟩
  · rintro (⟨hcommits, hrevision⟩ | ⟨hknows, hlimit⟩)
    · obtain ⟨r, c', hopen, rfl⟩ := hopened hcommits
      exact ⟨r, c', hopen, hasked hcommits hopen (Reader.failsBeyond_commits_of_refused hcommits.head hrevision _ _)⟩
    · obtain ⟨r, c', hopen, rfl⟩ := hopened hknows.toHasCommits
      exact ⟨r, c', hopen, hasked hknows.toHasCommits hopen
        (Reader.failsBeyond_commits_of_limit h hknows.head hknows.revision hlimit _)⟩

/-- What is found fails beyond exactly if what is read does, or if the largest size of a file is no integer where
contents were read. -/
theorem failsBeyond_found_iff (ht : t.IsRunnable) (h : repository.IsWellFormed f)
    (hrevision : repository.HasCommits path → repository.Starts (.verify revision))
    (hlimit : repository.Knows path revision → Reader.checkLimit (t.settings .gitMaxCommits) = .ok ())
    (c : Conversation) :
    Run.FailsBeyond IsTriage (t.found repository path revision) c ↔
      Run.FailsBeyond IsTriage (t.read repository path revision) c ∨
        (∃ churn snapshot c', (t.read repository path revision).Returns c (some (churn, snapshot)) c') ∧
          ¬∃ size, t.settings.maxFileSizeBytes = .ok size := by
  have hscored : ∀ (churn : ChurnHistory) size snapshot, Run.Ends (fun _ => True) (do
      let scores ← Run.phase "scoring" (t.score size snapshot)
      Run.checkpoint "ranking"
      return some (churn, scores)) (fun _ => True) IsTriage := fun churn size snapshot =>
    ((ht.ends_score size snapshot).phase (fun _ _ _ => trivial) _).bind fun scores _ =>
      (Run.ends_checkpoint ⟨_, rfl⟩).bind fun _ _ => Run.ends_pure trivial
  rw [found, Run.failsBeyond_bind]
  refine or_congr_right ⟨?_, ?_⟩
  · rintro ⟨_ | ⟨churn, snapshot⟩, c', hread, hfails⟩
    · exact absurd hfails (Run.not_failsBeyond_pure _ _)
    · refine ⟨⟨churn, snapshot, c', hread⟩, ?_⟩
      rintro ⟨size, hsize⟩
      have hclear := (ht.of_returns_read h hrevision hlimit hread).2
      rcases Run.failsBeyond_bind.1 hfails with hclose | ⟨_, c'', -, hfails⟩
      · exact Reader.ends_close.not_failsBeyond hclear hclose
      · have hrest := (Run.ends_ofFault (P := fun _ => True) (Q := fun _ => True) hsize trivial).bind fun size _ =>
          hscored churn size snapshot
        exact hrest.not_failsBeyond trivial hfails
  · rintro ⟨⟨churn, snapshot, c', hread⟩, hsize⟩
    have hclose := Reader.returns_close_iff.2 ⟨(ht.of_returns_read h hrevision hlimit hread).2.2, rfl⟩
    refine ⟨_, c', hread, Run.failsBeyond_bind.2 (.inr ⟨(), _, hclose, Run.failsBeyond_bind.2 (.inl ?_)⟩)⟩
    exact (Run.failsBeyond_ofFault Failure.not_isTriage_fault).2 hsize

/-- What is found was made of what was read. -/
theorem exists_returns_read {c c' : Conversation} {churn : ChurnHistory} {scores : Scores}
    (h : (t.found repository path revision).Returns c (some (churn, scores)) c') :
    ∃ snapshot c', (t.read repository path revision).Returns c (some (churn, snapshot)) c' := by
  obtain ⟨_ | ⟨churn', snapshot⟩, c₁, hread, hrest⟩ := Run.returns_bind.1 h
  · cases hrest
  · obtain ⟨_, _, -, hrest⟩ := Run.returns_bind.1 hrest
    obtain ⟨_, _, -, hrest⟩ := Run.returns_bind.1 hrest
    obtain ⟨_, _, -, hrest⟩ := Run.returns_bind.1 hrest
    obtain ⟨_, _, -, hrest⟩ := Run.returns_bind.1 hrest
    cases hrest
    exact ⟨snapshot, c₁, hread⟩

/-- Candidates are ranked without a fault exactly if there are none or the weights fit in machine words. -/
theorem failsBeyond_rank_iff {churn : ChurnHistory} (scores : Scores)
    (hcounts : ∀ record ∈ churn.records, record.changeCount < 2 ^ 64) (c : Conversation) :
    Run.FailsBeyond IsTriage (t.rank churn scores) c ↔ candidatesOf churn scores ≠ [] ∧
      ¬(Worklist.checkWeight (weights t.settings).change = .ok () ∧
        Worklist.checkWeight (weights t.settings).disharmony = .ok ()) := by
  have hfew : ∀ candidate ∈ candidatesOf churn scores, candidate.record.changeCount < 2 ^ 64 := by
    intro candidate hcandidate
    obtain ⟨-, hrecord, -⟩ := Worklist.mem_candidates.1 hcandidate
    obtain ⟨record, hmem, heq⟩ := List.mem_map.1 (Record.mem_of_get? hrecord)
    obtain ⟨-, hsame⟩ := Prod.mk.inj heq
    exact hsame ▸ hcounts record hmem
  rw [← (Worklist.exists_ofCandidates_iff.trans (and_iff_right fun _ hc => Worklist.isFinite_changeCount (hfew _ hc)))]
  unfold rank Worklist.rank candidatesOf
  split
  · next hnone => exact iff_of_false (Run.not_failsBeyond_pure _ _) fun h => h.1 hnone
  · next hsome =>
    rw [Run.failsBeyond_bind, Run.failsBeyond_ofFault Failure.not_isTriage_fault]
    constructor
    · rintro (hunranked | ⟨list, c', -, e, hlogged, -⟩)
      · exact ⟨hsome, hunranked⟩
      · cases hlogged
    · exact fun h => .inl h.2

/-- An analysis fails beyond exactly at one of six places: the path, the time that commands may take, the revision, the
limit on the number of commits, the largest size of a file and the weights. -/
theorem failsBeyond_calculate_iff (ht : t.IsRunnable) (h : repository.IsWellFormed f) (c : Conversation) :
    Run.FailsBeyond IsTriage (t.calculate repository path revision) c ↔
      repository.refuses? path ≠ none ∨
      ((repository.locate path).isSome = true ∧ repository.waitFault? (t.settings .gitTimeoutSeconds) ≠ none) ∨
      (repository.HasCommits path ∧ ¬repository.Starts (.verify revision)) ∨
      (repository.Knows path revision ∧ Reader.checkLimit (t.settings .gitMaxCommits) ≠ .ok ()) ∨
      ((∃ churn snapshot c', (t.read repository path revision).Returns c (some (churn, snapshot)) c') ∧
        ¬∃ size, t.settings.maxFileSizeBytes = .ok size) ∨
      (∃ churn scores c', (t.found repository path revision).Returns c (some (churn, scores)) c' ∧
        candidatesOf churn scores ≠ [] ∧ ¬(Worklist.checkWeight (weights t.settings).change = .ok () ∧
          Worklist.checkWeight (weights t.settings).disharmony = .ok ())) := by
  rw [calculate_eq, Run.failsBeyond_bind]
  have hread : Run.FailsBeyond IsTriage (t.read repository path revision) c →
      Run.FailsBeyond IsTriage (t.found repository path revision) c := fun hfails =>
    Run.failsBeyond_bind.2 (.inl hfails)
  by_cases hrefused : repository.HasCommits path ∧ ¬repository.Starts (.verify revision)
  · refine iff_of_true (.inl (hread ?_)) (.inr (.inr (.inl hrefused)))
    exact (ht.failsBeyond_read_iff h c).2 (.inr (.inr (.inl hrefused)))
  by_cases hbeyond : repository.Knows path revision ∧ Reader.checkLimit (t.settings .gitMaxCommits) ≠ .ok ()
  · refine iff_of_true (.inl (hread ?_)) (.inr (.inr (.inr (.inl hbeyond))))
    exact (ht.failsBeyond_read_iff h c).2 (.inr (.inr (.inr hbeyond)))
  -- The revision is passed on and the limit can be written where they are asked for: reading ends as it may, and its
  -- counts fit in machine words.
  have hrevision : repository.HasCommits path → repository.Starts (.verify revision) := not_and_not_right.1 hrefused
  have hlimit : repository.Knows path revision → Reader.checkLimit (t.settings .gitMaxCommits) = .ok () :=
    not_and_not_right.1 hbeyond
  rw [ht.failsBeyond_found_iff h hrevision hlimit, ht.failsBeyond_read_iff h, or_assoc, or_assoc, or_assoc, or_assoc]
  have hranked : ∀ {churn scores c'}, (t.found repository path revision).Returns c (some (churn, scores)) c' →
      (Run.FailsBeyond IsTriage (Run.phase "ranking" (t.rank churn scores)) c' ↔ candidatesOf churn scores ≠ [] ∧
        ¬(Worklist.checkWeight (weights t.settings).change = .ok () ∧
          Worklist.checkWeight (weights t.settings).disharmony = .ok ())) := by
    intro churn scores c' hfound
    obtain ⟨snapshot, c₁, hread⟩ := exists_returns_read hfound
    rw [Run.failsBeyond_phase]
    exact failsBeyond_rank_iff scores (ht.of_returns_read h hrevision hlimit hread).1 _
  refine or_congr_right (or_congr_right (or_congr_right (or_congr_right (or_congr_right ⟨?_, ?_⟩))))
  · rintro ⟨_ | ⟨churn, scores⟩, c', hfound, hfails⟩
    · exact absurd hfails (Run.not_failsBeyond_pure _ _)
    · exact ⟨churn, scores, c', hfound, (hranked hfound).1 hfails⟩
  · rintro ⟨churn, scores, c', hfound, hfails⟩
    exact ⟨some (churn, scores), c', hfound, (hranked hfound).2 hfails⟩

end IsRunnable

end Triage

end Hotspots
