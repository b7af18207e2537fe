import Hotspots.Proofs.Record.Sorted
import Hotspots.Proofs.Scan.Tallies
import Mathlib.Logic.Relation
import Mathlib.Tactic.Abel

/-!
# A pool of workers in any order

The tasks of a pool run at the same time: each counts its file in the total, examines it, and counts what became
of it, and between two such advances of one task any advances of others may come. The ends of the tasks are
collected in any order, too. Here a pool moves from state to state by one advance of one task.

Every run of a pool ends (`wellFounded_step`), a pool with a worker goes on until all of its tasks are collected
(`Sound.exists_step`), and then its results and its tally are those of the files, however the advances were ordered
(`Sound.perm_findings`, `Sound.tally_eq_of_isDone`). So a pool gives what scoring the files one after the other
gives (`scoreAll_eq_pool`).
-/

namespace Hotspots

open Relation
open scoped List

/-- How far the task of a file has come. -/
inductive Stage where
  /-- The task waits for a worker. -/
  | queued
  /-- The file is counted in the total and is being examined. -/
  | begun
  /-- The engine has failed on the file, which is not yet counted as skipped. -/
  | failing
  /-- The task has ended with what it returns. -/
  | ended (finding : Option Finding)
  /-- The pool has taken what the task returned. -/
  | collected

/-- The task of a file. -/
structure Job where
  file : FileIdentity × Bytes
  stage : Stage := .queued

/-- One advance of a task: the stage after it, and what it adds to the tally and to the results. -/
structure Advance where
  stage : Stage
  counts : Tally := 0
  results : Scores := []

namespace Stage

/-- Whether a task holds a worker. -/
def isBusy : Stage → Bool
  | begun => true
  | failing => true
  | _ => false

/-- How many advances a task has before it at most. -/
def remaining : Stage → Nat
  | queued => 4
  | begun => 3
  | failing => 2
  | ended _ => 1
  | collected => 0

end Stage

namespace Job

/-- The next advance of a task, unless it is collected. -/
def next? (s : Scorer) (j : Job) : Option Advance :=
  match j.stage with
  | .queued => some { stage := .begun, counts := { total := 1 } }
  | .begun =>
    match (s.examine j.file.1.path j.file.2).1 with
    | .unscannable => some { stage := .ended none, counts := { skipped := 1 } }
    | .clean => some { stage := .ended none, counts := { clean := 1 } }
    | .found f => some { stage := .ended (some f), counts := { scored := 1 } }
    | .failed _ => some { stage := .failing }
  | .failing => some { stage := .ended none, counts := { skipped := 1 } }
  | .ended finding => some { stage := .collected, results := Scorer.scored j.file.1 finding }
  | .collected => none

/-- The task after an advance. -/
def after (j : Job) (m : Advance) : Job := { j with stage := m.stage }

/-- A stage that the file of a task can be in. -/
def IsSound (s : Scorer) (j : Job) : Prop :=
  match j.stage with
  | .failing => ∃ e, (s.examine j.file.1.path j.file.2).1 = .failed e
  | .ended finding => finding = s.finding? j.file.1.path j.file.2
  | _ => True

/-- What a task has added to the tally. -/
def counted (s : Scorer) (j : Job) : Tally :=
  match j.stage with
  | .queued => 0
  | .begun => { total := 1 }
  | .failing => { total := 1 }
  | .ended _ => s.tallyOf j.file
  | .collected => s.tallyOf j.file

/-- What a task has added to the results. -/
def found (s : Scorer) (j : Job) : Scores :=
  match j.stage with
  | .collected => Scorer.scored j.file.1 (s.finding? j.file.1.path j.file.2)
  | _ => []

section Next

variable {s : Scorer} {j : Job} {m : Advance}

/-- A task has a next advance unless it is collected. -/
theorem next?_eq_none_iff : j.next? s = none ↔ j.stage = .collected := by
  unfold next?
  cases j.stage with
  | begun => cases (s.examine j.file.1.path j.file.2).1 <;> simp
  | _ => simp

/-- Every advance brings a task nearer to its end. -/
theorem remaining_lt (h : j.next? s = some m) : m.stage.remaining < j.stage.remaining := by
  obtain ⟨file, stage⟩ := j
  cases stage with
  | begun =>
    unfold next? at h
    dsimp only at h
    split at h <;> cases h <;> simp [Stage.remaining]
  | collected => cases h
  | _ =>
    cases h
    simp [Stage.remaining]

/-- An advance leaves a task in a stage that its file can be in, and adds to the tally and to the results what the
task has added then. -/
theorem after_next? (hj : j.IsSound s) (h : j.next? s = some m) :
    (j.after m).IsSound s ∧ (j.after m).counted s = j.counted s + m.counts ∧
      (j.after m).found s = j.found s ++ m.results := by
  obtain ⟨file, stage⟩ := j
  cases stage with
  | queued =>
    cases h
    exact ⟨trivial, rfl, rfl⟩
  | begun =>
    cases houtcome : (s.examine file.1.path file.2).1 with
    | failed e =>
      simp only [next?, houtcome] at h
      cases h
      exact ⟨⟨e, houtcome⟩, rfl, rfl⟩
    | _ =>
      simp only [next?, houtcome] at h
      cases h
      refine ⟨?_, ?_, rfl⟩
      · simp [IsSound, after, Scorer.finding?, houtcome, Scorer.Outcome.finding?]
      · simp [counted, after, Scorer.tallyOf, houtcome, Scorer.Outcome.tally, Tally.add_eq]
  | failing =>
    obtain ⟨e, he⟩ := hj
    cases h
    refine ⟨?_, ?_, rfl⟩
    · simp [IsSound, after, Scorer.finding?, he, Scorer.Outcome.finding?]
    · simp [counted, after, Scorer.tallyOf, he, Scorer.Outcome.tally, Tally.add_eq]
  | ended finding =>
    cases h
    have hfinding : finding = s.finding? file.1.path file.2 := hj
    subst hfinding
    exact ⟨trivial, (add_zero _).symm, rfl⟩
  | collected => cases h

end Next

end Job

/-- The state of a pool: the tally, the tasks, and the results that were collected. -/
structure Pool where
  tally : Tally
  jobs : List Job
  results : Scores := []

namespace Pool

/-- A pool in which every file of a snapshot has a task that waits. -/
def start (tally : Tally) (snapshot : Scorer.Snapshot) : Pool :=
  { tally := tally, jobs := snapshot.map fun file => { file := file } }

/-- How many workers are held by tasks. -/
def busy (jobs : List Job) : Nat := jobs.countP fun j => j.stage.isBusy

/-- One advance of one task, whichever it is; a task begins only if there is a worker for it. -/
inductive Step (s : Scorer) (workers : Nat) : Pool → Pool → Prop
  | advance {tally : Tally} {front back : List Job} {j : Job} {m : Advance} {results : Scores}
    (next : j.next? s = some m) (worker : j.stage = .queued → busy (front ++ j :: back) < workers) :
    Step s workers ⟨tally, front ++ j :: back, results⟩
      ⟨tally + m.counts, front ++ j.after m :: back, results ++ m.results⟩

/-- A pool whose tasks are all collected. -/
def IsDone (p : Pool) : Prop := ∀ j ∈ p.jobs, j.stage = .collected

variable {s : Scorer} {workers : Nat} {p q : Pool}

/-! ## Every run ends -/

/-- How many advances a pool has before it at most. -/
def remaining (p : Pool) : Nat := (p.jobs.map fun j => j.stage.remaining).sum

/-- Every advance brings a pool nearer to its end. -/
theorem Step.remaining_lt (h : Step s workers p q) : q.remaining < p.remaining := by
  cases h with
  | advance next _ =>
    have hlt := Job.remaining_lt next
    simp only [remaining, List.map_append, List.map_cons, List.sum_append, List.sum_cons, Job.after]
    omega

/-- No run of a pool goes on forever. -/
theorem wellFounded_step (s : Scorer) (workers : Nat) : WellFounded fun q p => Step s workers p q :=
  Subrelation.wf Step.remaining_lt (measure remaining).wf

/-! ## What every state of a run has in common -/

/-- A pool that comes from a snapshot: it has the tasks of the files, and its tally and its results are what these
have added. -/
structure Sound (s : Scorer) (tally : Tally) (snapshot : Scorer.Snapshot) (p : Pool) : Prop where
  files_eq : p.jobs.map Job.file = snapshot
  isSound : ∀ j ∈ p.jobs, j.IsSound s
  tally_eq : p.tally = tally + (p.jobs.map (Job.counted s)).sum
  results_perm : p.results.Perm (p.jobs.flatMap (Job.found s))

variable {tally : Tally} {snapshot : Scorer.Snapshot}

/-- A pool is sound when it starts. -/
theorem sound_start (s : Scorer) (tally : Tally) (snapshot : Scorer.Snapshot) :
    Sound s tally snapshot (start tally snapshot) where
  files_eq := by
    rw [start, List.map_map]
    exact List.map_id snapshot
  isSound j hj := by
    obtain ⟨file, -, rfl⟩ := List.mem_map.1 hj
    trivial
  tally_eq := by
    have hzero : ∀ n ∈ (start tally snapshot).jobs.map (Job.counted s), n = 0 := by
      intro n hn
      obtain ⟨j, hj, rfl⟩ := List.mem_map.1 hn
      obtain ⟨file, -, rfl⟩ := List.mem_map.1 hj
      rfl
    rw [List.sum_eq_zero hzero, add_zero]
    rfl
  results_perm := by
    have hnone : (start tally snapshot).jobs.flatMap (Job.found s) = [] := by
      rw [List.flatMap_eq_nil_iff]
      intro j hj
      obtain ⟨file, -, rfl⟩ := List.mem_map.1 hj
      rfl
    rw [hnone]
    exact List.Perm.refl _

/-- An advance keeps a pool sound. -/
theorem Sound.step (hp : p.Sound s tally snapshot) (h : Step s workers p q) : q.Sound s tally snapshot := by
  cases h with
  | @advance t front back j m results next _ =>
    obtain ⟨hsound, hcounted, hfound⟩ := Job.after_next? (hp.isSound j (by simp)) next
    refine ⟨?_, ?_, ?_, ?_⟩
    · rw [← hp.files_eq]
      simp [Job.after]
    · intro k hk
      rcases List.mem_append.1 hk with hk | hk
      · exact hp.isSound k (List.mem_append_left _ hk)
      · rcases List.mem_cons.1 hk with rfl | hk
        · exact hsound
        · exact hp.isSound k (List.mem_append_right _ (List.mem_cons_of_mem _ hk))
    · have htally := hp.tally_eq
      simp only [List.map_append, List.map_cons, List.sum_append, List.sum_cons, hcounted] at htally ⊢
      rw [htally]
      abel
    · have hperm := hp.results_perm
      simp only [List.flatMap_append, List.flatMap_cons, hfound] at hperm ⊢
      calc results ++ m.results
          _ ~ (front.flatMap (Job.found s) ++ (j.found s ++ back.flatMap (Job.found s))) ++ m.results :=
            hperm.append_right _
          _ ~ front.flatMap (Job.found s) ++ (j.found s ++ m.results ++ back.flatMap (Job.found s)) := by
            simp only [List.append_assoc]
            exact (List.perm_append_comm.append_left _).append_left _

/-- Every state of a run is sound. -/
theorem Sound.steps (hp : p.Sound s tally snapshot) (h : ReflTransGen (Step s workers) p q) :
    q.Sound s tally snapshot := by
  induction h with
  | refl => exact hp
  | tail _ hstep ih => exact ih.step hstep

/-! ## Progress and end -/

/-- No worker is held if the tasks wait or are collected. -/
theorem busy_eq_zero {jobs : List Job} (h : ∀ k ∈ jobs, k.stage ≠ .queued → k.stage = .collected) :
    busy jobs = 0 := by
  rw [busy, List.countP_eq_zero]
  intro k hk
  by_cases hwaits : k.stage = .queued
  · simp [hwaits, Stage.isBusy]
  · simp [h k hk hwaits, Stage.isBusy]

/-- A pool with a worker goes on until all of its tasks are collected. -/
theorem exists_step (hworkers : 0 < workers) (h : ¬p.IsDone) : ∃ q, Step s workers p q := by
  obtain ⟨t, jobs, results⟩ := p
  -- A task that has begun can go on. If there is none, no worker is held, and a task that waits can begin.
  by_cases hbegun : ∃ j ∈ jobs, j.stage ≠ .queued ∧ j.stage ≠ .collected
  · obtain ⟨j, hj, hne, hopen⟩ := hbegun
    obtain ⟨front, back, rfl⟩ := List.append_of_mem hj
    obtain ⟨m, hm⟩ := Option.ne_none_iff_exists'.1 (mt Job.next?_eq_none_iff.1 hopen)
    exact ⟨_, .advance hm fun hwaits => (hne hwaits).elim⟩
  · have hrest : ∀ k ∈ jobs, k.stage ≠ .queued → k.stage = .collected := fun k hk hne =>
      by_contra fun hopen => hbegun ⟨k, hk, hne, hopen⟩
    obtain ⟨j, hj, hopen⟩ : ∃ j ∈ jobs, j.stage ≠ .collected := by simpa [IsDone] using h
    have hidle : busy jobs = 0 := busy_eq_zero hrest
    obtain ⟨front, back, rfl⟩ := List.append_of_mem hj
    obtain ⟨m, hm⟩ := Option.ne_none_iff_exists'.1 (mt Job.next?_eq_none_iff.1 hopen)
    exact ⟨_, .advance hm fun _ => by omega⟩

/-- The tally of a pool that is done is that of its files. -/
theorem Sound.tally_eq_of_isDone (hp : p.Sound s tally snapshot) (hdone : p.IsDone) :
    p.tally = tally + s.tallyOfAll snapshot := by
  have hcounted : p.jobs.map (Job.counted s) = p.jobs.map fun j => s.tallyOf j.file :=
    List.map_congr_left fun j hj => by rw [Job.counted, hdone j hj]
  rw [hp.tally_eq, hcounted, ← hp.files_eq, Scorer.tallyOfAll, List.map_map]
  rfl

/-- The results of a pool that is done are the findings of its files. -/
theorem Sound.perm_findings (hp : p.Sound s tally snapshot) (hdone : p.IsDone) :
    p.results.Perm (s.findings snapshot) := by
  have hfound : p.jobs.flatMap (Job.found s) = s.findings (p.jobs.map Job.file) := by
    rw [Scorer.findings, List.flatMap_map]
    exact List.flatMap_congr fun j hj => by rw [Job.found, hdone j hj]
  rw [← hp.files_eq, ← hfound]
  exact hp.results_perm

end Pool

namespace Scorer

variable {s : Scorer} {snapshot : Snapshot}

/-! ## The order of the scores -/

/-- The uids of findings are some of those of the files. -/
theorem nodup_uids_findings (s : Scorer) (h : (snapshot.map fun file => file.1.uid).Nodup) :
    ((s.findings snapshot).map fun score => score.1.uid).Nodup := by
  have hsublist := (s.map_fst_findings_sublist snapshot).map FileIdentity.uid
  rw [List.map_map, List.map_map] at hsublist
  exact h.sublist hsublist

/-- Scores with distinct uids are put in order strictly. -/
theorem pairwise_byUid {scores : Scores} (h : (scores.map fun score => score.1.uid).Nodup) :
    (byUid scores).Pairwise fun a b => a.1.uid < b.1.uid := by
  have horder : (byUid scores).Pairwise fun a b => a.1.uid ≤ b.1.uid :=
    pairwise_mergeSort_key (fun score : FileIdentity × Finding => score.1.uid) scores
  have hdistinct : (byUid scores).Pairwise fun a b => a.1.uid ≠ b.1.uid := by
    have hperm : ((byUid scores).map fun score => score.1.uid).Perm (scores.map fun score => score.1.uid) :=
      (List.mergeSort_perm _ _).map _
    exact List.pairwise_map.1 (hperm.nodup_iff.2 h)
  exact (horder.and hdistinct).imp fun hboth => by omega

/-- Scores with distinct uids have one order, wherever they stood before. -/
theorem byUid_eq_of_perm {scores others : Scores} (hperm : scores.Perm others)
    (h : (scores.map fun score => score.1.uid).Nodup) : byUid scores = byUid others :=
  eq_mergeSort_of_perm ((hperm.map _).nodup_iff.1 h) ((List.mergeSort_perm _ _).trans hperm)
    ((pairwise_byUid h).imp le_of_lt)

/-! ## A pool and one file after the other -/

/-- A scorer with a number of workers, or with as many as the machine has. -/
def withWorkers (s : Scorer) (workers : Option Nat) : Scorer :=
  { s with workers := (workers.map fun n => Value.int n).getD .null }

/-- Every number of workers makes a pool. -/
theorem makesPool_withWorkers (s : Scorer) (workers : Option Nat) :
    makesPool (s.withWorkers workers).workers = true := by
  cases workers with
  | none => rfl
  | some n =>
    cases n with
    | zero => rfl
    | succ n => rfl

/-- An ordinary scorer has the same scores and the same tally whether it scores files one after the other or with
a pool. Every file is counted once in the total, and once as scored, clean or skipped. A pool may order the work of
its tasks as it likes: it comes to an end, and then it has these scores and this tally. -/
theorem scoreAll_eq_pool (hs : s.IsOrdinary) (workers : Option Nat)
    (huids : (snapshot.map fun file => file.1.uid).Nodup) {st : Scoring} (hst : st.session.cancelled = false) :
    ∃ (scores : Scores) (added : Tally),
      (∀ parallel, ∃ st', ((s.withWorkers workers).scoreAll snapshot parallel).Returns st scores st' ∧
        st'.tally = st.tally + added) ∧
      (scores.Pairwise fun a b => a.1.uid < b.1.uid) ∧
      added.total = snapshot.length ∧ added.scored = scores.length ∧ added.IsBalanced ∧
      ∀ threads, 0 < threads →
        (WellFounded fun after before => Pool.Step s threads before after) ∧
        ∀ pool, ReflTransGen (Pool.Step s threads) (Pool.start st.tally snapshot) pool →
          (pool.IsDone ∨ ∃ next, Pool.Step s threads pool next) ∧
          (pool.IsDone → byUid pool.results = scores ∧ pool.tally = st.tally + added) := by
  have hdistinct := s.nodup_uids_findings huids
  refine ⟨byUid (s.findings snapshot), s.tallyOfAll snapshot, fun parallel => ?_, pairwise_byUid hdistinct,
    s.total_tallyOfAll snapshot, ?_, s.isBalanced_tallyOfAll snapshot, fun threads hthreads => ?_⟩
  · have hs' : (s.withWorkers workers).IsOrdinary := ⟨hs.answers, hs.not_interrupted, hs.not_cancelled⟩
    exact returns_scoreAll hs' (s.makesPool_withWorkers workers) snapshot parallel hst
  · rw [scored_tallyOfAll, byUid, List.length_mergeSort]
  · refine ⟨Pool.wellFounded_step s threads, fun pool hrun => ?_⟩
    have hsound := (Pool.sound_start s st.tally snapshot).steps hrun
    refine ⟨or_iff_not_imp_left.2 (Pool.exists_step hthreads), fun hdone => ?_⟩
    exact ⟨(byUid_eq_of_perm (hsound.perm_findings hdone).symm hdistinct).symm, hsound.tally_eq_of_isDone hdone⟩

/-- Of twelve files one is binary, one is clean, and the engine fails on one and on a question about another. -/
theorem scoreAll_eq_pool_failing :
    let finding : Finding := { rule := "long", score := .ofInt 1, subject := "", line := 1, metrics := [] }
    let engine : Engine :=
      { supports := fun _ => true
        analyze := fun path _ =>
          if path = "f3" then .error (.fault (.other "ValueError" "boom"))
          else if path = "f5" then .ok [] else .ok [finding]
        failure? := fun path => if path = "f9" then some (.fault (.other "KeyError" "gone")) else none }
    let s : Scorer := { engine := engine }
    let snapshot : Snapshot := (List.range 12).map fun n : Nat =>
      ({ uid := (n : Int), path := "f" ++ natText n }, if n = 7 then [0] else [97])
    let tally : Tally := { scored := 8, clean := 1, skipped := 3, total := 12 }
    s.IsOrdinary ∧ (snapshot.map fun file => file.1.uid).Nodup ∧
      ∃ scores, (∀ parallel, ∃ st', ((s.withWorkers (some 3)).scoreAll snapshot parallel).Returns {} scores st' ∧
          st'.tally = tally) ∧
        ∀ pool, ReflTransGen (Pool.Step s 3) (Pool.start {} snapshot) pool → pool.IsDone →
          byUid pool.results = scores ∧ pool.tally = tally := by
  intro finding engine s snapshot tally
  have hs : s.IsOrdinary := by
    refine ⟨fun path => ?_, fun path source => ?_, fun _ => rfl⟩
    · change (if path = "f9" then some _ else none) ≠ some Failure.interrupted
      split <;> exact nofun
    · change (if path = "f3" then _ else if path = "f5" then _ else _) ≠ Except.error Failure.interrupted
      split
      · exact nofun
      · split <;> exact nofun
  have huids : (snapshot.map fun file => file.1.uid).Nodup := by decide
  have hfresh : ({} : Scoring).session.cancelled = false := rfl
  obtain ⟨scores, added, hmodes, -, -, -, -, hpools⟩ := scoreAll_eq_pool hs (some 3) huids hfresh
  have hadded : (0 : Tally) + added = tally := by
    obtain ⟨st', hreturns, htally⟩ := hmodes false
    have hrun : (Run.exec ((s.withWorkers (some 3)).scoreAll snapshot false) {}).2.tally = tally := by
      decide +kernel
    rw [show Run.exec _ _ = _ from hreturns] at hrun
    exact htally.symm.trans hrun
  refine ⟨hs, huids, scores, fun parallel => ?_, fun pool hrun hdone => ?_⟩
  · obtain ⟨st', hreturns, htally⟩ := hmodes parallel
    exact ⟨st', hreturns, htally.trans hadded⟩
  · obtain ⟨hscores, htally⟩ := (((hpools 3 (by decide)).2 pool hrun).2 hdone)
    exact ⟨hscores, htally.trans hadded⟩

end Scorer

end Hotspots
