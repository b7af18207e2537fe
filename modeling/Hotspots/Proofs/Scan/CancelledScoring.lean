import Hotspots.Proofs.Scan.Pool

/-!
# Scoring that is cancelled on the way

A run may be cancelled while a file is analyzed. A pool looks at the mark when all of its tasks are over, so that it
gives no scores then, however its tasks were ordered (`WatchedPool.Sound.cancelled_iff`). Files that are scored one
after the other have a checkpoint before each of them and none after the last: a run that is cancelled on the last
file only gives its scores all the same. So scoring ends with the cancellation exactly if a pool was used or files
were left (`scoreAll_endsCancelled_iff`).
-/

namespace Hotspots

open Relation

namespace Scorer

variable {s : Scorer} {snapshot rest : Snapshot} {file : FileIdentity × Bytes}

/-! ## One file -/

/-- Whether the run is cancelled while a file is analyzed. -/
def cancelsAt (s : Scorer) (file : FileIdentity × Bytes) : Bool := s.cancelsOn file.1.path file.2

/-- Whether the engine is interrupted on a file. -/
def interruptsAt (s : Scorer) (file : FileIdentity × Bytes) : Bool :=
  match (s.examine file.1.path file.2).1 with
  | .failed .interrupted => true
  | _ => false

/-- Scoring a file ends with its finding unless the engine is interrupted, and leaves the run cancelled if it was
before or is on this file. -/
theorem exec_scoreGuarded (s : Scorer) (file : FileIdentity × Bytes) (st : Scoring) :
    ∃ st', Run.exec (s.scoreGuarded file.1 file.2) st =
        (if s.interruptsAt file then .error .interrupted else .ok (s.finding? file.1.path file.2), st') ∧
      st'.session.cancelled = (st.session.cancelled || s.cancelsAt file) := by
  unfold scoreGuarded score interruptsAt finding? cancelsAt
  rcases s.examine file.1.path file.2 with ⟨outcome, entries⟩
  dsimp only
  cases s.cancelsOn file.1.path file.2 with
  | false =>
    rw [Bool.or_false]
    cases outcome with
    | failed e => cases e <;> exact ⟨_, rfl, rfl⟩
    | _ => exact ⟨_, rfl, rfl⟩
  | true =>
    rw [Bool.or_true]
    cases outcome with
    | failed e => cases e <;> exact ⟨_, rfl, rfl⟩
    | _ => exact ⟨_, rfl, rfl⟩

/-! ## Where a run is cancelled -/

/-- The run is cancelled while a file is analyzed after which the files `left` remain, and the engine was not
interrupted until then. -/
def CancelledBefore (s : Scorer) (snapshot left : Snapshot) : Prop :=
  ∃ front file, snapshot = front ++ file :: left ∧ s.cancelsAt file = true ∧
    ∀ e ∈ front ++ [file], s.interruptsAt e = false

/-- Without files there is nothing to be cancelled on. -/
theorem not_cancelledBefore_nil (left : Snapshot) : ¬s.CancelledBefore [] left := by
  rintro ⟨front, file, hparts, -⟩
  simp at hparts

/-- The run is cancelled on the first file or on a later one. -/
theorem cancelledBefore_cons_iff {left : Snapshot} :
    s.CancelledBefore (file :: rest) left ↔ s.interruptsAt file = false ∧
      ((s.cancelsAt file = true ∧ left = rest) ∨ s.CancelledBefore rest left) := by
  constructor
  · rintro ⟨front, cut, hparts, hcut, hgoes⟩
    cases front with
    | nil =>
      obtain ⟨rfl, rfl⟩ := List.cons.inj hparts
      exact ⟨hgoes file (by simp), .inl ⟨hcut, rfl⟩⟩
    | cons first front =>
      obtain ⟨rfl, rfl⟩ := List.cons.inj hparts
      exact ⟨hgoes file (by simp),
        .inr ⟨front, cut, rfl, hcut, fun e he => hgoes e (List.mem_cons_of_mem _ he)⟩⟩
  · rintro ⟨hfirst, ⟨hcut, rfl⟩ | ⟨front, cut, rfl, hcut, hgoes⟩⟩
    · exact ⟨[], file, rfl, hcut, by simpa using hfirst⟩
    · refine ⟨file :: front, cut, rfl, hcut, ?_⟩
      rw [List.cons_append, List.forall_mem_cons]
      exact ⟨hfirst, hgoes⟩

/-- The run is cancelled on some file. -/
theorem exists_cancelledBefore_cons_iff : (∃ left, s.CancelledBefore (file :: rest) left) ↔
    s.interruptsAt file = false ∧ (s.cancelsAt file = true ∨ ∃ left, s.CancelledBefore rest left) := by
  simp only [cancelledBefore_cons_iff, exists_and_left, exists_or, exists_eq, and_true]

/-! ## Files in turn -/

/-- Scoring that ends at a checkpoint because the run was cancelled. -/
def EndsCancelled (r : Run Scoring Scores) (st : Scoring) : Prop :=
  (Run.exec r st).1 = .error (.cancelled "scoring")

/-- What is done with the results of scoring does not hide that it was cancelled. -/
theorem endsCancelled_bind_iff {r : Run Scoring Scores} {g : Scores → Run Scoring Scores}
    (hg : ∀ results, (g results).IsTotal) (st : Scoring) : EndsCancelled (r >>= g) st ↔ EndsCancelled r st := by
  unfold EndsCancelled
  rw [Run.exec_bind]
  rcases Run.exec r st with ⟨_ | results, st'⟩
  · exact Iff.rfl
  · obtain ⟨final, st'', hend⟩ := hg results st'
    dsimp only
    rw [show Run.exec (g results) st' = _ from hend]
    exact ⟨nofun, nofun⟩

/-- Files in turn end with the cancellation if the run was cancelled before or on a file after which others come. -/
theorem endsCancelled_inTurn_iff (s : Scorer) (snapshot : Snapshot) (st : Scoring) :
    EndsCancelled (s.inTurn snapshot) st ↔ (st.session.cancelled = true ∧ snapshot ≠ []) ∨
      (st.session.cancelled = false ∧ ∃ left, s.CancelledBefore snapshot left ∧ left ≠ []) := by
  induction snapshot generalizing st with
  | nil => simp [EndsCancelled, inTurn, Run.exec_pure, not_cancelledBefore_nil]
  | cons file rest ih =>
    have hstart := Run.exec_checkpoint "scoring" st
    obtain ⟨st', hfile, hmark⟩ := s.exec_scoreGuarded file st
    rw [EndsCancelled, inTurn]
    cases hst : st.session.cancelled with
    | true =>
      rw [show (HasSession.session st).cancelled = true from hst] at hstart
      rw [Run.exec_bind_of_error hstart]
      simp
    | false =>
      rw [show (HasSession.session st).cancelled = false from hst] at hstart
      rw [Run.exec_bind_of_ok hstart]
      rw [hst, Bool.false_or] at hmark
      simp only [cancelledBefore_cons_iff, true_and, false_and, false_or, Bool.false_eq_true]
      cases hinterrupt : s.interruptsAt file with
      | true =>
        rw [hinterrupt] at hfile
        rw [Run.exec_bind_of_error hfile]
        simp [Failure.cancelled]
      | false =>
        rw [hinterrupt] at hfile
        rw [Run.exec_bind_of_ok hfile, ← EndsCancelled,
          endsCancelled_bind_iff fun _ => Run.isTotal_pure _, ih, hmark]
        cases s.cancelsAt file with
        | false => simp
        | true =>
          -- Whether the run is cancelled once more makes no difference: if there are files, they are not scored.
          simp only [true_and, false_and, or_false, Bool.true_eq_false]
          constructor
          · exact fun hne => ⟨rest, .inl rfl, hne⟩
          · rintro ⟨left, rfl | hlater, hne⟩
            · exact hne
            · rintro rfl
              exact not_cancelledBefore_nil left hlater

/-! ## Files in a pool -/

/-- A task does nothing in a cancelled run, and otherwise scores its file. -/
theorem exec_task (s : Scorer) (file : FileIdentity × Bytes) (st : Scoring) :
    Run.exec (s.task file.1 file.2) st =
      if st.session.cancelled then (.ok none, st) else Run.exec (s.scoreGuarded file.1 file.2) st := by
  have hmark : Run.exec Run.isCancelled st = (.ok st.session.cancelled, st) := rfl
  rw [task, Run.exec_bind_of_ok hmark]
  cases st.session.cancelled <;> rfl

/-- Tasks come to their end unless the engine is interrupted before the run is cancelled. In the end the run is
cancelled if it was before or on a file. -/
theorem exec_runTasks (s : Scorer) (snapshot : Snapshot) (st : Scoring) :
    ∃ ending st', Run.exec (s.runTasks snapshot) st = (ending, st') ∧
      match ending with
      | .ok _ => st'.session.cancelled = true ↔
          st.session.cancelled = true ∨ ∃ left, s.CancelledBefore snapshot left
      | .error e => e = .interrupted ∧ st.session.cancelled = false ∧ ¬∃ left, s.CancelledBefore snapshot left := by
  induction snapshot generalizing st with
  | nil => exact ⟨.ok [], st, rfl, by simp [not_cancelledBefore_nil]⟩
  | cons file rest ih =>
    have htask := s.exec_task file st
    obtain ⟨st₁, hfile, hmark⟩ := s.exec_scoreGuarded file st
    rw [runTasks]
    cases hst : st.session.cancelled with
    | true =>
      rw [if_pos hst] at htask
      obtain ⟨ending, st', hrest, hending⟩ := ih st
      rw [Run.exec_bind_of_ok htask, Run.exec_bind, hrest]
      cases ending with
      | ok results => exact ⟨_, st', rfl, by simpa [hst] using hending⟩
      | error e => simp [hst] at hending
    | false =>
      rw [if_neg (by simp [hst]), hfile] at htask
      rw [hst, Bool.false_or] at hmark
      simp only [exists_cancelledBefore_cons_iff, Bool.false_eq_true, false_or]
      cases hinterrupt : s.interruptsAt file with
      | true =>
        rw [hinterrupt] at htask
        exact ⟨_, st₁, Run.exec_bind_of_error htask, by simp⟩
      | false =>
        rw [hinterrupt] at htask
        obtain ⟨ending, st', hrest, hending⟩ := ih st₁
        rw [hmark] at hending
        rw [Run.exec_bind_of_ok htask, Run.exec_bind, hrest]
        cases ending with
        | ok results => exact ⟨_, st', rfl, by simpa using hending⟩
        | error e => exact ⟨_, st', rfl, by simpa using hending⟩

/-- A pool ends with the cancellation if the run was cancelled on a file. -/
theorem endsCancelled_withPool_iff (s : Scorer) (snapshot : Snapshot) {st : Scoring}
    (hst : st.session.cancelled = false) : EndsCancelled (s.withPool snapshot) st ↔
      makesPool s.workers = true ∧ ∃ left, s.CancelledBefore snapshot left := by
  unfold withPool
  cases hworkers : makesPool s.workers with
  | false => exact iff_of_false nofun nofun
  | true =>
    obtain ⟨ending, st', htasks, hending⟩ := s.exec_runTasks snapshot st
    simp only [Bool.not_true, Bool.false_eq_true, if_false, true_and]
    rw [EndsCancelled, Run.exec_bind, htasks]
    cases ending with
    | error e =>
      obtain ⟨rfl, -, hnever⟩ := hending
      exact iff_of_false nofun hnever
    | ok results =>
      simp only [hst, Bool.false_eq_true, false_or] at hending
      have hend : Run.exec (Run.checkpoint "scoring") st' =
          (if st'.session.cancelled then .error (.cancelled "scoring") else .ok (), st') :=
        Run.exec_checkpoint "scoring" st'
      rw [← hending]
      dsimp only
      cases hmark : st'.session.cancelled with
      | true =>
        rw [if_pos hmark] at hend
        rw [Run.exec_bind_of_error hend]
        exact iff_of_true rfl rfl
      | false =>
        rw [if_neg (by simp [hmark])] at hend
        rw [Run.exec_bind_of_ok hend]
        exact iff_of_false nofun nofun

/-- Scoring ends with the cancellation exactly if the run was cancelled on a file, and a pool was used or files were
left. -/
theorem endsCancelled_scoreAll_iff (s : Scorer) (snapshot : Snapshot) (parallel : Bool) {st : Scoring}
    (hst : st.session.cancelled = false) : EndsCancelled (s.scoreAll snapshot parallel) st ↔
      ∃ left, s.CancelledBefore snapshot left ∧
        if parallel = true ∧ poolSize ≤ snapshot.length then makesPool s.workers = true else left ≠ [] := by
  have hreport : ∀ results : Scores, Run.IsTotal (do
      let state : Scoring ← Run.state
      Run.log .info (tallyText state.tally)
      return byUid results) := fun results st' => ⟨_, _, rfl⟩
  unfold scoreAll
  dsimp only
  by_cases hpool : parallel = true ∧ poolSize ≤ snapshot.length
  · rw [if_neg (by simp [hpool.1, hpool.2]), endsCancelled_bind_iff hreport, s.endsCancelled_withPool_iff snapshot hst,
      and_comm]
    simp only [if_pos hpool, exists_and_right]
  · have hturn : (!parallel || decide (snapshot.length < poolSize)) = true := by
      cases parallel <;> simp_all
    rw [if_pos hturn, endsCancelled_bind_iff hreport, endsCancelled_inTurn_iff]
    simp only [hst, Bool.false_eq_true, false_and, false_or, true_and, if_neg hpool]

end Scorer

/-! ## A pool in any order -/

/-- Whether the run is cancelled in the next advance of a task. -/
def Job.cancels (s : Scorer) (j : Job) : Bool :=
  match j.stage with
  | .begun => s.cancelsAt j.file
  | _ => false

/-- Whether a task waits for nothing but to be collected. -/
def Stage.isOver : Stage → Bool
  | ended _ => true
  | collected => true
  | _ => false

/-- A pool, and whether the run is cancelled. -/
structure WatchedPool where
  cancelled : Bool := false
  pool : Pool

namespace WatchedPool

open Pool (busy)

/-- One advance of one task, whichever it is. -/
inductive Step (s : Scorer) (workers : Nat) : WatchedPool → WatchedPool → Prop
  /-- A task goes on. None begins without a worker or in a cancelled run, and the run may be cancelled on the way. -/
  | advance {cancelled : Bool} {tally : Tally} {front back : List Job} {j : Job} {m : Advance} {results : Scores}
    (next : j.next? s = some m)
    (begins : j.stage = .queued → cancelled = false ∧ busy (front ++ j :: back) < workers) :
    Step s workers ⟨cancelled, tally, front ++ j :: back, results⟩
      ⟨cancelled || j.cancels s, tally + m.counts, front ++ j.after m :: back, results ++ m.results⟩
  /-- In a cancelled run a task that waits is withdrawn or passes its file over, and returns nothing. -/
  | pass {tally : Tally} {front back : List Job} {j : Job} {results : Scores} (waits : j.stage = .queued) :
    Step s workers ⟨true, tally, front ++ j :: back, results⟩
      ⟨true, tally, front ++ j.after { stage := .ended none } :: back, results⟩

/-- A pool whose tasks are over; unless the run is cancelled, they are collected, too. -/
def HasEnded (p : WatchedPool) : Prop :=
  (∀ j ∈ p.pool.jobs, j.stage.isOver = true) ∧ (p.cancelled = true ∨ p.pool.IsDone)

/-- How a pool ends: with its results, unless the run is cancelled. -/
def ending (p : WatchedPool) : Except Failure Scores :=
  if p.cancelled then .error (.cancelled "scoring") else .ok p.pool.results

/-- A pool in which every file of a snapshot has a task that waits, in a run that is not cancelled. -/
def start (tally : Tally) (snapshot : Scorer.Snapshot) : WatchedPool := { pool := .start tally snapshot }

variable {s : Scorer} {workers : Nat} {p q : WatchedPool} {snapshot : Scorer.Snapshot}

/-- Every advance brings a pool nearer to its end. -/
theorem Step.remaining_lt (h : Step s workers p q) : q.pool.remaining < p.pool.remaining := by
  cases h with
  | advance next begins => exact Pool.Step.remaining_lt (.advance next fun hwaits => (begins hwaits).2)
  | pass waits =>
    simp only [Pool.remaining, List.map_append, List.map_cons, List.sum_append, List.sum_cons, Job.after, waits,
      Stage.remaining]
    omega

/-- No run of a pool goes on forever. -/
theorem wellFounded_step (s : Scorer) (workers : Nat) : WellFounded fun q p => Step s workers p q :=
  Subrelation.wf Step.remaining_lt (measure fun p : WatchedPool => p.pool.remaining).wf

/-- A pool with a worker goes on until it has ended. -/
theorem exists_step (hworkers : 0 < workers) (h : ¬p.HasEnded) : ∃ q, Step s workers p q := by
  obtain ⟨cancelled, tally, jobs, results⟩ := p
  by_cases hbegun : ∃ j ∈ jobs, j.stage ≠ .queued ∧ j.stage ≠ .collected
  · obtain ⟨j, hj, hne, hopen⟩ := hbegun
    obtain ⟨front, back, rfl⟩ := List.append_of_mem hj
    obtain ⟨m, hm⟩ := Option.ne_none_iff_exists'.1 (mt Job.next?_eq_none_iff.1 hopen)
    exact ⟨_, .advance hm fun hwaits => (hne hwaits).elim⟩
  · have hrest : ∀ k ∈ jobs, k.stage ≠ .queued → k.stage = .collected := fun k hk hne =>
      by_contra fun hopen => hbegun ⟨k, hk, hne, hopen⟩
    obtain ⟨j, hj, hwaits⟩ : ∃ j ∈ jobs, j.stage = .queued := by
      by_contra hnone
      have hdone : ∀ j ∈ jobs, j.stage = .collected := fun j hj =>
        hrest j hj fun hwaits => hnone ⟨j, hj, hwaits⟩
      exact h ⟨fun j hj => by rw [hdone j hj]; rfl, .inr hdone⟩
    obtain ⟨front, back, rfl⟩ := List.append_of_mem hj
    cases cancelled with
    | true => exact ⟨_, .pass hwaits⟩
    | false =>
      have hopen : j.stage ≠ .collected := by simp [hwaits]
      obtain ⟨m, hm⟩ := Option.ne_none_iff_exists'.1 (mt Job.next?_eq_none_iff.1 hopen)
      exact ⟨_, .advance hm fun _ => ⟨rfl, by rw [Pool.busy_eq_zero hrest]; exact hworkers⟩⟩

/-! ## What every state of a run has in common -/

/-- A pool of the files of a snapshot: the run is cancelled if it was cancelled on one of the files that were
examined. -/
structure Sound (s : Scorer) (snapshot : Scorer.Snapshot) (p : WatchedPool) : Prop where
  files_eq : p.pool.jobs.map Job.file = snapshot
  of_cancelled : p.cancelled = true → ∃ file ∈ snapshot, s.cancelsAt file = true
  of_not_cancelled : p.cancelled = false → ∀ j ∈ p.pool.jobs, j.stage ≠ .queued → j.stage ≠ .begun →
    s.cancelsAt j.file = false

/-- A pool is sound when it starts. -/
theorem sound_start (s : Scorer) (tally : Tally) (snapshot : Scorer.Snapshot) :
    Sound s snapshot (start tally snapshot) where
  files_eq := (Pool.sound_start s tally snapshot).files_eq
  of_cancelled := nofun
  of_not_cancelled _ j hj hbegun := by
    obtain ⟨file, -, rfl⟩ := List.mem_map.1 hj
    exact (hbegun rfl).elim

/-- A task that has passed its examination was examined before, or is examined in this advance. -/
theorem cancelsAt_of_after {j : Job} {m : Advance} (next : j.next? s = some m) (hbegun : m.stage ≠ .begun)
    (hgoes : j.cancels s = false)
    (hbefore : j.stage ≠ .queued → j.stage ≠ .begun → s.cancelsAt j.file = false) : s.cancelsAt j.file = false := by
  obtain ⟨file, stage⟩ := j
  cases stage with
  | queued =>
    cases next
    exact (hbegun rfl).elim
  | begun => exact hgoes
  | _ => exact hbefore nofun nofun

/-- An advance keeps a pool sound. -/
theorem Sound.step (hp : p.Sound s snapshot) (h : Step s workers p q) : q.Sound s snapshot := by
  cases h with
  | @advance cancelled tally front back j m results next begins =>
    have hj : j ∈ front ++ j :: back := by simp
    refine ⟨?_, fun hcancelled => ?_, fun hgoes k hk hqueued hbegun => ?_⟩
    · rw [← hp.files_eq]
      simp [Job.after]
    · rcases Bool.or_eq_true_iff.1 hcancelled with hbefore | hnow
      · exact hp.of_cancelled hbefore
      · refine ⟨j.file, hp.files_eq ▸ List.mem_map_of_mem hj, ?_⟩
        unfold Job.cancels at hnow
        split at hnow
        · exact hnow
        · cases hnow
    · obtain ⟨hbefore, hnow⟩ := Bool.or_eq_false_iff.1 hgoes
      have hothers := hp.of_not_cancelled hbefore
      rcases List.mem_append.1 hk with hk | hk
      · exact hothers k (List.mem_append_left _ hk) hqueued hbegun
      · rcases List.mem_cons.1 hk with rfl | hk
        · change s.cancelsAt j.file = false
          exact cancelsAt_of_after next hbegun hnow (hothers j hj)
        · exact hothers k (List.mem_append_right _ (List.mem_cons_of_mem _ hk)) hqueued hbegun
  | pass waits =>
    refine ⟨?_, hp.of_cancelled, fun hgoes => by cases hgoes⟩
    rw [← hp.files_eq]
    simp [Job.after]

/-- Every state of a run is sound. -/
theorem Sound.steps (hp : p.Sound s snapshot) (h : ReflTransGen (Step s workers) p q) : q.Sound s snapshot := by
  induction h with
  | refl => exact hp
  | tail _ hstep ih => exact ih.step hstep

/-- A pool that has ended is cancelled exactly if the run is cancelled on one of its files. -/
theorem Sound.cancelled_iff (hp : p.Sound s snapshot) (hended : p.HasEnded) :
    p.cancelled = true ↔ ∃ file ∈ snapshot, s.cancelsAt file = true := by
  refine ⟨hp.of_cancelled, fun ⟨file, hfile, hcancels⟩ => ?_⟩
  by_contra hgoes
  rw [Bool.not_eq_true] at hgoes
  rw [← hp.files_eq] at hfile
  obtain ⟨j, hj, rfl⟩ := List.mem_map.1 hfile
  have hdone : p.pool.IsDone := hended.2.resolve_left (by simp [hgoes])
  have hexamined := hp.of_not_cancelled hgoes j hj (by simp [hdone j hj]) (by simp [hdone j hj])
  rw [hcancels] at hexamined
  cases hexamined

end WatchedPool

namespace Scorer

variable {s : Scorer} {snapshot : Snapshot}

/-- Scoring that is cancelled while a file is analyzed ends with the cancellation exactly if a pool was used or files
were left: those that are scored one after the other end so if another file comes after one on which the run is
cancelled. A pool ends so if the run is cancelled on any file, and it does end, in whatever order its tasks run. -/
theorem scoreAll_endsCancelled_iff (s : Scorer) (snapshot : Snapshot) {st : Scoring}
    (hst : st.session.cancelled = false) :
    (∀ parallel, EndsCancelled (s.scoreAll snapshot parallel) st ↔
      ∃ left, s.CancelledBefore snapshot left ∧
        if parallel = true ∧ poolSize ≤ snapshot.length then makesPool s.workers = true else left ≠ []) ∧
    ((∀ file ∈ snapshot, s.interruptsAt file = false) → ∀ threads, 0 < threads →
      (WellFounded fun after before => WatchedPool.Step s threads before after) ∧
      ∀ p, ReflTransGen (WatchedPool.Step s threads) (WatchedPool.start st.tally snapshot) p →
        (p.HasEnded ∨ ∃ next, WatchedPool.Step s threads p next) ∧
        (p.HasEnded → (p.ending = .error (.cancelled "scoring") ↔
          ∃ file ∈ snapshot, s.cancelsAt file = true))) := by
  refine ⟨fun parallel => s.endsCancelled_scoreAll_iff snapshot parallel hst, fun _ threads hthreads =>
    ⟨WatchedPool.wellFounded_step s threads, fun p hrun => ?_⟩⟩
  have hsound := (WatchedPool.sound_start s st.tally snapshot).steps hrun
  refine ⟨or_iff_not_imp_left.2 (WatchedPool.exists_step hthreads), fun hended => ?_⟩
  rw [← hsound.cancelled_iff hended, WatchedPool.ending]
  cases p.cancelled with
  | true => exact iff_of_true rfl rfl
  | false => exact iff_of_false nofun nofun

/-- Twelve files of which the run is cancelled on the last: a pool ends with the cancellation, in whatever order its
tasks run, and the files in turn do not. -/
theorem scoreAll_endsCancelled_iff_last :
    let engine : Engine :=
      { supports := fun _ => true, analyze := fun _ _ => .ok [], cancels := fun path => path == "f11" }
    let s : Scorer := { engine := engine }
    let snapshot : Snapshot := (List.range 12).map fun n : Nat => ({ uid := (n : Int), path := "f" ++ natText n }, [97])
    (({} : Scoring).session.cancelled = false ∧ ∀ file ∈ snapshot, s.interruptsAt file = false) ∧
      EndsCancelled (s.scoreAll snapshot true) {} ∧ ¬EndsCancelled (s.scoreAll snapshot false) {} ∧
      ∀ p, ReflTransGen (WatchedPool.Step s 3) (WatchedPool.start {} snapshot) p → p.HasEnded →
        p.ending = .error (.cancelled "scoring") := by
  intro engine s snapshot
  have hquiet : ∀ file ∈ snapshot, s.interruptsAt file = false := by decide +kernel
  have hfresh : ({} : Scoring).session.cancelled = false := rfl
  obtain ⟨hmodes, hpools⟩ := scoreAll_endsCancelled_iff s snapshot hfresh
  have hlast : s.CancelledBefore snapshot [] := by
    refine ⟨snapshot.take 11, ({ uid := 11, path := "f11" }, [97]), by decide +kernel, by decide +kernel, ?_⟩
    exact fun e he => hquiet e (by
      rw [show snapshot = snapshot.take 11 ++ [({ uid := 11, path := "f11" }, [97])] by decide +kernel]
      exact he)
  refine ⟨⟨hfresh, hquiet⟩, (hmodes true).2 ⟨[], hlast, ?_⟩, fun hends => ?_, fun p hrun hended => ?_⟩
  · rw [if_pos ⟨rfl, by decide +kernel⟩]
    rfl
  · have hturn : (Run.exec (s.scoreAll snapshot false) {}).1.toOption.isSome = true := by decide +kernel
    rw [show (Run.exec (s.scoreAll snapshot false) {}).1 = _ from hends] at hturn
    cases hturn
  · obtain ⟨-, hends⟩ := (hpools hquiet 3 (by decide)).2 p hrun
    refine (hends hended).2 ⟨({ uid := 11, path := "f11" }, [97]), by decide +kernel, by decide +kernel⟩

/-- Three files are scored one after the other in both modes. A run that is cancelled on the last of them gives their
scores, although it is cancelled in the end. -/
theorem not_endsCancelled_of_last :
    let finding : Finding := { rule := "long", score := .ofInt 1, subject := "", line := 1, metrics := [] }
    let engine : Engine :=
      { supports := fun _ => true, analyze := fun _ _ => .ok [finding], cancels := fun path => path == "c.txt" }
    let s : Scorer := { engine := engine }
    let snapshot : Snapshot :=
      [({ uid := 0, path := "a.txt" }, [49]), ({ uid := 1, path := "b.txt" }, [50]),
        ({ uid := 2, path := "c.txt" }, [51])]
    s.CancelledBefore snapshot [] ∧
      ∀ parallel, ¬EndsCancelled (s.scoreAll snapshot parallel) {} ∧
        ∃ scores st', (s.scoreAll snapshot parallel).Returns {} scores st' ∧
          st'.tally = { scored := 3, total := 3 } ∧ st'.session.cancelled = true := by
  intro finding engine s snapshot
  refine ⟨⟨snapshot.take 2, ({ uid := 2, path := "c.txt" }, [51]), rfl, by decide +kernel, by decide +kernel⟩,
    fun parallel => ?_⟩
  have hends : (Run.exec (s.scoreAll snapshot parallel) {}).1.toOption.isSome = true := by
    cases parallel <;> decide +kernel
  have hleft : (Run.exec (s.scoreAll snapshot parallel) {}).2.tally = { scored := 3, total := 3 } ∧
      (Run.exec (s.scoreAll snapshot parallel) {}).2.session.cancelled = true := by
    cases parallel <;> decide +kernel
  obtain ⟨scores, hscores⟩ := Option.isSome_iff_exists.1 hends
  obtain ⟨st', hreturns⟩ := Run.exists_returns hscores
  rw [show Run.exec _ _ = _ from hreturns] at hleft
  refine ⟨fun hcancelled => ?_, scores, st', hreturns, hleft⟩
  rw [EndsCancelled, show Run.exec _ _ = _ from hreturns] at hcancelled
  cases hcancelled

end Scorer

end Hotspots
