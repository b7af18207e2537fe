import Hotspots.Proofs.Run.Follows
import Hotspots.Proofs.Scan.CancelledScoring

/-!
# Scoring in a cancelled run

Here the run may be cancelled before each file is scored and after the last one, and on any file. Scoring then ends
with the cancellation, or as it does in a run that is never cancelled (`follows_scoreAllAmid`); and if it gives scores
although the run was cancelled, the mark is there for the next checkpoint (`marked_of_returns_scoreAllAmid`).
-/

namespace Hotspots

instance : LawfulSession Scoring where
  session_withSession _ _ := rfl
  withSession_withSession _ _ _ := rfl

namespace Scorer

open Run (MarkStays isMarked isCourse_markStays)

variable {s : Scorer} {cancels : Nat → Bool} {snapshot : Snapshot} {file : FileIdentity × Bytes}

/-- A scorer whose engine never cancels the run. -/
def undisturbed (s : Scorer) : Scorer := { s with engine := { s.engine with cancels := fun _ => false } }

/-! ## Scoring with moments -/

/-- Takes files one after the other. The run may be cancelled before each of them and after the last. -/
def eachAmid (step : FileIdentity → Bytes → Run Scoring (Option Finding)) :
    (Nat → Bool) → Snapshot → Run Scoring Scores
  | cancels, [] => do
    Run.strike (cancels 0)
    return []
  | cancels, (identity, content) :: rest => do
    Run.strike (cancels 0)
    let finding ← step identity content
    let more ← eachAmid step (fun n => cancels (n + 1)) rest
    return scored identity finding ++ more

/-- One file in turn, with the checkpoint before it. -/
def turn (s : Scorer) (identity : FileIdentity) (content : Bytes) : Run Scoring (Option Finding) := do
  Run.checkpoint "scoring"
  s.scoreGuarded identity content

/-- Scores files with a pool of workers, where the run may be cancelled between the files. -/
def withPoolAmid (s : Scorer) (cancels : Nat → Bool) (snapshot : Snapshot) : Run Scoring Scores := do
  if !makesPool s.workers then Run.fail noWorkers
  else
    let results ← eachAmid s.task cancels snapshot
    Run.checkpoint "scoring"
    return results

/-- Scores files in turn or with a pool, where the run may be cancelled between the files. -/
def resultsAmid (s : Scorer) (cancels : Nat → Bool) (snapshot : Snapshot) (parallel : Bool) : Run Scoring Scores :=
  if !parallel || snapshot.length < poolSize then eachAmid s.turn cancels snapshot
  else s.withPoolAmid cancels snapshot

/-- The findings of files in the order of the uids, where the run may be cancelled between the files. -/
def scoreAllAmid (s : Scorer) (cancels : Nat → Bool) (snapshot : Snapshot) (parallel : Bool) : Run Scoring Scores := do
  let results ← s.resultsAmid cancels snapshot parallel
  Run.log .info (tallyText (← Run.state).tally)
  return byUid results

/-- Files are taken in turn if the run is never cancelled between them. -/
theorem eachAmid_turn (s : Scorer) (snapshot : Snapshot) :
    eachAmid s.turn (fun _ => false) snapshot = s.inTurn snapshot := by
  induction snapshot with
  | nil => rfl
  | cons file rest ih =>
    rw [eachAmid, inTurn, ih, turn, bind_assoc]
    rfl

/-- Tasks are run if the run is never cancelled between them. -/
theorem eachAmid_task (s : Scorer) (snapshot : Snapshot) :
    eachAmid s.task (fun _ => false) snapshot = s.runTasks snapshot := by
  induction snapshot with
  | nil => rfl
  | cons file rest ih =>
    rw [eachAmid, runTasks, ih]
    rfl

/-- Scoring is what it is if the run is never cancelled between the files. -/
theorem scoreAllAmid_never (s : Scorer) (snapshot : Snapshot) (parallel : Bool) :
    s.scoreAllAmid (fun _ => false) snapshot parallel = s.scoreAll snapshot parallel := by
  unfold scoreAllAmid resultsAmid scoreAll withPoolAmid withPool
  rw [eachAmid_turn, eachAmid_task]
  dsimp only
  split <;> rfl

/-! ## What scoring follows -/

/-- A file is scored whether or not the run is cancelled. -/
theorem follows_scoreGuarded (s : Scorer) (identity : FileIdentity) (content : Bytes) :
    Run.Follows MarkStays (s.scoreGuarded identity content) (s.undisturbed.scoreGuarded identity content) := by
  have hexamine : s.undisturbed.examine identity.path content = s.examine identity.path content := rfl
  have hcancels : s.undisturbed.cancelsOn identity.path content = false := by
    unfold cancelsOn
    split <;> rfl
  intro st
  obtain ⟨st', hexec, hmark⟩ := s.exec_scoreGuarded (identity, content) st
  refine ⟨fun hst => ?_, .inr ?_⟩
  · rw [hexec]
    change st'.session.cancelled = true
    rw [hmark, show st.session.cancelled = true from hst, Bool.true_or]
  · unfold scoreGuarded score
    rw [hexamine, hcancels]
    rcases s.examine identity.path content with ⟨outcome, entries⟩
    cases s.cancelsOn identity.path content <;> cases outcome with
    | failed e => cases e <;> rfl
    | _ => rfl

/-- A file in turn is scored unless the run is cancelled. -/
theorem follows_turn (s : Scorer) (identity : FileIdentity) (content : Bytes) :
    Run.Follows MarkStays (s.turn identity content) (s.undisturbed.turn identity content) :=
  (Run.follows_checkpoint isCourse_markStays _).bind isCourse_markStays fun _ => s.follows_scoreGuarded _ _

/-- Files are scored in turn unless the run is cancelled. -/
theorem follows_eachAmid_turn (s : Scorer) (cancels : Nat → Bool) (snapshot : Snapshot) :
    Run.Follows MarkStays (eachAmid s.turn cancels snapshot)
      (eachAmid s.undisturbed.turn (fun _ => false) snapshot) := by
  have hR := isCourse_markStays (σ := Scoring)
  induction snapshot generalizing cancels with
  | nil => exact (Run.follows_strike hR _).bind hR fun _ => Run.follows_pure hR _
  | cons file rest ih =>
    exact (Run.follows_strike hR _).bind hR fun _ => (s.follows_turn _ _).bind hR fun _ =>
      (ih _).bind hR fun _ => Run.follows_pure hR _

/-- The tasks of a cancelled run pass the files over, and the mark is there in the end. -/
theorem returns_eachAmid_task_of_marked (s : Scorer) (cancels : Nat → Bool) (snapshot : Snapshot) {st : Scoring}
    (hst : isMarked st = true) :
    ∃ scores st', (eachAmid s.task cancels snapshot).Returns st scores st' ∧ isMarked st' = true := by
  induction snapshot generalizing cancels st with
  | nil =>
    refine ⟨[], _, Run.returns_bind.2 ⟨(), _, Run.returns_strike.2 rfl, Run.returns_pure.2 ⟨rfl, rfl⟩⟩, ?_⟩
    cases cancels 0
    · exact hst
    · rfl
  | cons file rest ih =>
    have hstruck : isMarked (if cancels 0 then Run.marked st else st) = true := by
      cases cancels 0
      · exact hst
      · rfl
    have htask : (s.task file.1 file.2).Returns (if cancels 0 then Run.marked st else st) none
        (if cancels 0 then Run.marked st else st) :=
      (s.exec_task file _).trans (if_pos hstruck)
    obtain ⟨scores, st', hrest, hmark⟩ := ih (fun n => cancels (n + 1)) hstruck
    exact ⟨_, st', Run.returns_bind.2 ⟨(), _, Run.returns_strike.2 rfl, Run.returns_bind.2 ⟨none, _, htask,
      Run.returns_bind.2 ⟨scores, st', hrest, Run.returns_pure.2 ⟨rfl, rfl⟩⟩⟩⟩, hmark⟩

/-- Tasks are run, and the checkpoint after them is passed, unless the run is cancelled. -/
theorem follows_eachAmid_task (s : Scorer) (cancels : Nat → Bool) (snapshot : Snapshot) (k : Scores → Scores) :
    Run.Follows MarkStays
      (eachAmid s.task cancels snapshot >>= fun results => Run.checkpoint "scoring" >>= fun _ => pure (k results))
      (eachAmid s.undisturbed.task (fun _ => false) snapshot >>= fun results =>
        Run.checkpoint "scoring" >>= fun _ => pure (k results)) := by
  have hR := isCourse_markStays (σ := Scoring)
  induction snapshot generalizing cancels k with
  | nil =>
    refine ((Run.follows_strike hR _).bind hR fun _ => Run.follows_pure hR _).bind hR fun _ => ?_
    exact (Run.follows_checkpoint hR _).bind hR fun _ => Run.follows_pure hR _
  | cons file rest ih =>
    rw [eachAmid, eachAmid]
    simp only [bind_assoc, pure_bind]
    refine (Run.follows_strike hR _).bind hR fun _ st => ?_
    rw [Run.exec_bind (s.task _ _), Run.exec_bind (s.undisturbed.task _ _), s.exec_task file,
      s.undisturbed.exec_task file]
    cases hst : st.session.cancelled with
    | true =>
      obtain ⟨scores, st', hrest, hmark⟩ := s.returns_eachAmid_task_of_marked (fun n => cancels (n + 1)) rest hst
      have hend := Run.exec_checkpoint "scoring" st'
      rw [show (HasSession.session st').cancelled = true from hmark, if_pos rfl] at hend
      rw [if_pos rfl]
      dsimp only
      rw [Run.exec_bind_of_ok hrest, Run.exec_bind_of_error hend]
      exact ⟨fun _ => hmark, .inl ⟨"scoring", rfl⟩⟩
    | false =>
      have hsame := ((s.follows_scoreGuarded file.1 file.2).bind hR fun finding =>
        ih (fun n => cancels (n + 1)) fun more => k (scored file.1 finding ++ more)) st
      rw [Run.exec_bind, Run.exec_bind] at hsame
      exact hsame

/-- Scoring ends with the cancellation, or as it does in a run that is never cancelled. -/
theorem follows_scoreAllAmid (s : Scorer) (cancels : Nat → Bool) (snapshot : Snapshot) (parallel : Bool) :
    Run.Follows MarkStays (s.scoreAllAmid cancels snapshot parallel)
      (s.undisturbed.scoreAllAmid (fun _ => false) snapshot parallel) := by
  have hR := isCourse_markStays (σ := Scoring)
  have hreport : ∀ results : Scores, Run.Follows MarkStays
      (do Run.log .info (tallyText (← Run.state : Scoring).tally)
          return byUid results : Run Scoring Scores)
      (do Run.log .info (tallyText (← Run.state : Scoring).tally)
          return byUid results) := fun results =>
    Run.follows_state_bind fun st => ((Run.follows_log hR _ _).bind hR fun _ => Run.follows_pure hR _) st
  have hscores : Run.Follows MarkStays (s.resultsAmid cancels snapshot parallel)
      (s.undisturbed.resultsAmid (fun _ => false) snapshot parallel) := by
    unfold resultsAmid
    split
    · exact s.follows_eachAmid_turn cancels snapshot
    · unfold withPoolAmid
      rw [show s.undisturbed.workers = s.workers from rfl]
      split
      · exact Run.follows_fail hR _
      · exact s.follows_eachAmid_task cancels snapshot id
  exact hscores.bind hR hreport

/-! ## Marks in the end -/

/-- Files that are all taken leave the mark if the run was cancelled before, between or after them, or on one. -/
theorem marked_of_returns_eachAmid {step : FileIdentity → Bytes → Run Scoring (Option Finding)}
    (hstep : ∀ (file : FileIdentity × Bytes) (st st' : Scoring) (finding : Option Finding),
      (step file.1 file.2).Returns st finding st' → isMarked st = true ∨ s.cancelsAt file = true → isMarked st' = true)
    {st st' : Scoring} {scores : Scores} (h : (eachAmid step cancels snapshot).Returns st scores st')
    (hcancels : isMarked st = true ∨ (∃ n ≤ snapshot.length, cancels n = true) ∨
      ∃ file ∈ snapshot, s.cancelsAt file = true) : isMarked st' = true := by
  induction snapshot generalizing cancels st scores with
  | nil =>
    obtain ⟨_, st₁, hstrike, h⟩ := Run.returns_bind.1 h
    obtain ⟨-, rfl⟩ := Run.returns_pure.1 h
    rw [Run.returns_strike] at hstrike
    subst hstrike
    rcases hcancels with hst | ⟨n, hn, hnow⟩ | ⟨file, hfile, -⟩
    · split
      · rfl
      · exact hst
    · obtain rfl : n = 0 := Nat.le_zero.1 hn
      rw [if_pos hnow]
      rfl
    · cases hfile
  | cons file rest ih =>
    obtain ⟨_, st₁, hstrike, h⟩ := Run.returns_bind.1 h
    obtain ⟨finding, st₂, hfile, h⟩ := Run.returns_bind.1 h
    obtain ⟨more, st₃, hrest, h⟩ := Run.returns_bind.1 h
    obtain ⟨-, rfl⟩ := Run.returns_pure.1 h
    rw [Run.returns_strike] at hstrike
    subst hstrike
    have hfirst := hstep file _ _ _ hfile
    rcases hcancels with hst | ⟨n, hn, hnow⟩ | ⟨file', hmem, hnow⟩
    · refine ih hrest (.inl (hfirst (.inl ?_)))
      split
      · rfl
      · exact hst
    · cases n with
      | zero => exact ih hrest (.inl (hfirst (.inl (by rw [if_pos hnow]; rfl))))
      | succ n => exact ih hrest (.inr (.inl ⟨n, Nat.le_of_succ_le_succ hn, hnow⟩))
    · rcases List.mem_cons.1 hmem with rfl | hmem
      · exact ih hrest (.inl (hfirst (.inr hnow)))
      · exact ih hrest (.inr (.inr ⟨file', hmem, hnow⟩))

/-- A file that is scored leaves the mark if the run was cancelled before it or on it. -/
theorem marked_of_returns_scoreGuarded (file : FileIdentity × Bytes) {st st' : Scoring} {finding : Option Finding}
    (h : (s.scoreGuarded file.1 file.2).Returns st finding st')
    (hcancels : isMarked st = true ∨ s.cancelsAt file = true) : isMarked st' = true := by
  obtain ⟨st'', hexec, hmark⟩ := s.exec_scoreGuarded file st
  have hend : st' = st'' := congrArg Prod.snd (h.symm.trans hexec)
  subst hend
  exact hmark.trans (Bool.or_eq_true_iff.2 hcancels)

/-- Scores that are given although the run was cancelled come with the mark. -/
theorem marked_of_returns_scoreAllAmid {parallel : Bool} {st st' : Scoring} {scores : Scores}
    (h : (s.scoreAllAmid cancels snapshot parallel).Returns st scores st')
    (hcancels : isMarked st = true ∨ (∃ n ≤ snapshot.length, cancels n = true) ∨
      ∃ file ∈ snapshot, s.cancelsAt file = true) : isMarked st' = true := by
  have hturn : ∀ (file : FileIdentity × Bytes) (st st' : Scoring) (finding : Option Finding),
      (s.turn file.1 file.2).Returns st finding st' → isMarked st = true ∨ s.cancelsAt file = true →
        isMarked st' = true := by
    intro file st st' finding h
    obtain ⟨_, st₁, hcheckpoint, h⟩ := Run.returns_bind.1 h
    obtain ⟨-, rfl⟩ := Run.returns_checkpoint.1 hcheckpoint
    exact marked_of_returns_scoreGuarded file h
  have htask : ∀ (file : FileIdentity × Bytes) (st st' : Scoring) (finding : Option Finding),
      (s.task file.1 file.2).Returns st finding st' → isMarked st = true ∨ s.cancelsAt file = true →
        isMarked st' = true := by
    intro file st st' finding h hnow
    rw [Run.Returns, s.exec_task file st] at h
    cases hst : st.session.cancelled with
    | true =>
      rw [if_pos hst] at h
      cases h
      exact hst
    | false =>
      rw [if_neg (by simp [hst])] at h
      exact marked_of_returns_scoreGuarded file h hnow
  obtain ⟨results, st₁, hresults, h⟩ := Run.returns_bind.1 h
  have hmark : isMarked st₁ = true := by
    unfold resultsAmid at hresults
    split at hresults
    · exact marked_of_returns_eachAmid hturn hresults hcancels
    · unfold withPoolAmid at hresults
      split at hresults
      · exact (Run.returns_fail.1 hresults).elim
      · obtain ⟨results', st₂, htasks, hend⟩ := Run.returns_bind.1 hresults
        obtain ⟨_, st₃, hcheckpoint, hend⟩ := Run.returns_bind.1 hend
        obtain ⟨-, rfl⟩ := Run.returns_checkpoint.1 hcheckpoint
        obtain ⟨-, rfl⟩ := Run.returns_pure.1 hend
        exact marked_of_returns_eachAmid htask htasks hcancels
  obtain ⟨_, st₂, hstate, h⟩ := Run.returns_bind.1 h
  obtain ⟨rfl, rfl⟩ := Run.returns_state.1 hstate
  obtain ⟨_, st₃, hlog, h⟩ := Run.returns_bind.1 h
  obtain ⟨-, rfl⟩ := Run.returns_pure.1 h
  rw [Run.returns_log] at hlog
  subst hlog
  exact hmark

end Scorer

end Hotspots
