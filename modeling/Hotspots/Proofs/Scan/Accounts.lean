import Hotspots.Proofs.Run.Ends
import Hotspots.Proofs.Scan.StruckScoring

/-!
# Accounts of files

A file is counted in the total before it is examined, and as scored, clean or skipped when it is done. In between the
tally owes it. A scorer that is asked for many files settles the accounts of all of them before it comes to its end, in
whatever order its tasks run and whether or not the run is cancelled. A scorer that is asked for one file does so unless
the engine fails on the file in an unexpected way: then the failure is passed on, and the file is in the total only
(`accounts_of_history`).
-/

namespace Hotspots

open Relation

namespace Tally

/-- The files in the total are scored, clean or skipped, except for some. -/
def Owes (t : Tally) (n : Nat) : Prop := t.total = t.scored + t.clean + t.skipped + n

/-- A tally is balanced if it owes nothing. -/
theorem Owes.isBalanced_iff {t : Tally} {n : Nat} (h : t.Owes n) : t.IsBalanced ↔ n = 0 := by
  unfold Owes at h
  unfold IsBalanced
  omega

/-- A file that is skipped is not owed any longer. -/
theorem Owes.skip {t : Tally} {n : Nat} (h : t.Owes (n + 1)) : Owes { t with skipped := t.skipped + 1 } n := by
  unfold Owes at *
  dsimp only
  omega

end Tally

namespace Scorer

variable {s : Scorer} {n : Nat} {α β : Type}

/-! ## One file -/

/-- The failure that an outcome holds. -/
def Outcome.failure? : Outcome → Option Failure
  | failed e => some e
  | _ => none

/-- How the engine fails on a path with a content, unless it only rejects the content. -/
def failure? (s : Scorer) (path : String) (content : Bytes) : Option Failure := (s.examine path content).1.failure?

/-- The engine fails on a source that it can neither analyze nor reject. -/
theorem failure?_analyzed {path source : String} {e : Failure} : (s.analyzed path source).1.failure? = some e ↔
    s.engine.analyze path source = .error e ∧ isRejection e = false := by
  rw [analyzed]
  cases s.engine.analyze path source with
  | ok findings =>
    dsimp only
    cases representative? findings <;> simp [Outcome.failure?]
  | error e' =>
    dsimp only
    cases hrejection : isRejection e' with
    | true =>
      refine iff_of_false (Option.some_ne_none e).symm ?_
      rintro ⟨heq, hgoes⟩
      rw [Except.error.inj heq, hgoes] at hrejection
      cases hrejection
    | false =>
      constructor
      · intro h
        obtain rfl := Option.some.inj h
        exact ⟨rfl, hrejection⟩
      · rintro ⟨heq, -⟩
        exact congrArg some (Except.error.inj heq)

/-- The engine fails on a file if it fails on the question about its path, or on its source. -/
theorem failure?_eq_some_iff {path : String} {content : Bytes} {e : Failure} : s.failure? path content = some e ↔
    s.engine.failure? path = some e ∨ s.engine.failure? path = none ∧
      ∃ source, s.sourceOf path content = .ok source ∧ s.engine.analyze path source = .error e ∧
        isRejection e = false := by
  rw [failure?, examine]
  cases s.engine.failure? path with
  | some e' => simp [Outcome.failure?]
  | none =>
    cases s.sourceOf path content with
    | error obstacle => simp [Outcome.failure?]
    | ok source => simp [failure?_analyzed]

/-- An engine that is not interrupted on a file fails on it in another way, if at all. -/
theorem failure?_ne_interrupted {identity : FileIdentity} {content : Bytes}
    (hquiet : s.interruptsAt (identity, content) = false) : s.failure? identity.path content ≠ some .interrupted := by
  unfold interruptsAt at hquiet
  unfold failure?
  intro h
  cases houtcome : (s.examine identity.path content).1 with
  | failed e =>
    rw [houtcome] at h hquiet
    obtain rfl := Option.some.inj h
    cases hquiet
  | _ =>
    rw [houtcome] at h
    cases h

/-- An outcome is settled unless it is a failure. -/
theorem Outcome.owes_count (outcome : Outcome) {t : Tally} (h : t.Owes n) :
    (outcome.count t).Owes (n + if outcome.failure?.isSome then 1 else 0) := by
  unfold Tally.Owes at *
  cases outcome <;> simp [count, failure?] <;> omega

/-- Scoring a file fails as the engine does on the file, and counts what became of it. -/
theorem exec_score_counts (s : Scorer) (identity : FileIdentity) (content : Bytes) (st : Scoring) :
    (Run.exec (s.score identity content) st).1 =
        (match s.failure? identity.path content with
        | some e => .error e
        | none => .ok (s.finding? identity.path content)) ∧
      (Run.exec (s.score identity content) st).2.tally = (s.examine identity.path content).1.count st.tally := by
  unfold score failure? finding?
  rcases s.examine identity.path content with ⟨outcome, entries⟩
  dsimp only
  cases s.cancelsOn identity.path content <;> cases outcome <;> exact ⟨rfl, rfl⟩

/-- Scoring a file fails exactly as the engine does on the file. -/
theorem exec_score_eq_error_iff {identity : FileIdentity} {content : Bytes} {st : Scoring} {e : Failure} :
    (Run.exec (s.score identity content) st).1 = .error e ↔ s.failure? identity.path content = some e := by
  rw [(s.exec_score_counts identity content st).1]
  cases s.failure? identity.path content <;> simp

/-- A file that is scored settles its own account, unless the engine fails on it. -/
theorem owes_score (s : Scorer) (identity : FileIdentity) (content : Bytes) {st : Scoring} (h : st.tally.Owes n) :
    (Run.exec (s.score identity content) st).2.tally.Owes
      (n + if (s.failure? identity.path content).isSome then 1 else 0) := by
  rw [(s.exec_score_counts identity content st).2]
  exact Outcome.owes_count _ h

/-! ## Many files one after the other -/

/-- A computation that settles the accounts that it opens, however it ends. -/
def Settles (r : Run Scoring α) : Prop :=
  ∀ n, Run.Ends (fun st => st.tally.Owes n) r (fun _ => True) fun _ => True

/-- The log and the mark of a cancellation have no accounts. -/
theorem settles_of_tally_eq {r : Run Scoring α} (h : ∀ st, (Run.exec r st).2.tally = st.tally) : Settles r :=
  fun n => Run.ends_of_keeps fun st hst => by rwa [h st]

/-- A sequence settles its accounts if both of its parts do. -/
theorem Settles.bind {r : Run Scoring α} {f : α → Run Scoring β} (hr : Settles r) (hf : ∀ a, Settles (f a)) :
    Settles (r >>= f) :=
  fun n => (hr n).bind fun a _ => hf a n

/-- A file that is scored or skipped settles its own account. -/
theorem settles_scoreGuarded {identity : FileIdentity} {content : Bytes}
    (hquiet : s.interruptsAt (identity, content) = false) : Settles (s.scoreGuarded identity content) := by
  refine fun n => Run.ends_of_keeps fun st hst => ?_
  have howes := s.owes_score identity content hst
  rw [scoreGuarded, Run.exec_bind_of_ok (Run.exec_outcome _ _), (s.exec_score_counts identity content st).1]
  cases hfailure : s.failure? identity.path content with
  | none =>
    rw [hfailure] at howes
    exact howes
  | some e =>
    rw [hfailure] at howes
    cases e with
    | interrupted => exact (failure?_ne_interrupted hquiet hfailure).elim
    | triage e => exact howes.skip
    | fault f => exact howes.skip

/-- One file in turn settles its account, also if the run is cancelled before it. -/
theorem settles_turn {identity : FileIdentity} {content : Bytes} (hquiet : s.interruptsAt (identity, content) = false) :
    Settles (s.turn identity content) :=
  (settles_of_tally_eq fun st => by rw [Run.exec_checkpoint]).bind fun _ => settles_scoreGuarded hquiet

/-- A task settles the account of its file, also if it passes the file over. -/
theorem settles_task {identity : FileIdentity} {content : Bytes} (hquiet : s.interruptsAt (identity, content) = false) :
    Settles (s.task identity content) := by
  refine (settles_of_tally_eq fun st => rfl).bind fun cancelled => ?_
  cases cancelled with
  | true => exact settles_of_tally_eq fun st => rfl
  | false => exact settles_scoreGuarded hquiet

/-- Files settle their accounts if each of them does, wherever the run is cancelled. -/
theorem settles_eachAmid {step : FileIdentity → Bytes → Run Scoring (Option Finding)}
    (hstep : ∀ identity content, Settles (step identity content)) (cancels : Nat → Bool) (snapshot : Snapshot) :
    Settles (eachAmid step cancels snapshot) := by
  have hstrike : ∀ now, Settles (Run.strike now) := fun now =>
    settles_of_tally_eq fun st => by cases now <;> rfl
  induction snapshot generalizing cancels with
  | nil => exact (hstrike _).bind fun _ => settles_of_tally_eq fun st => rfl
  | cons file rest ih =>
    exact (hstrike _).bind fun _ => (hstep _ _).bind fun _ => (ih _).bind fun _ => settles_of_tally_eq fun st => rfl

/-- Many files settle their accounts in both modes, wherever the run is cancelled. -/
theorem settles_scoreAllAmid (hquiet : ∀ file, s.interruptsAt file = false) (cancels : Nat → Bool)
    (snapshot : Snapshot) (parallel : Bool) : Settles (s.scoreAllAmid cancels snapshot parallel) := by
  have hresults : Settles (s.resultsAmid cancels snapshot parallel) := by
    unfold resultsAmid
    split
    · exact settles_eachAmid (fun _ _ => settles_turn (hquiet _)) cancels snapshot
    · unfold withPoolAmid
      split
      · exact settles_of_tally_eq fun st => rfl
      · refine (settles_eachAmid (fun _ _ => settles_task (hquiet _)) cancels snapshot).bind fun _ => ?_
        exact (settles_of_tally_eq fun st => by rw [Run.exec_checkpoint]).bind fun _ =>
          settles_of_tally_eq fun st => rfl
  exact hresults.bind fun _ => settles_of_tally_eq fun st => rfl

end Scorer

/-! ## A pool in any order -/

/-- A task that is over holds no worker. -/
theorem Stage.isBusy_eq_false_of_isOver {stage : Stage} (h : stage.isOver = true) : stage.isBusy = false := by
  cases stage with
  | ended finding => rfl
  | collected => rfl
  | _ => cases h

/-- What a task owes before an advance and after it: one file while it holds a worker, and nothing else. -/
theorem Job.owes_next? {s : Scorer} {j : Job} {m : Advance} {t : Tally} {n : Nat} (h : j.next? s = some m)
    (ht : t.Owes (n + if j.stage.isBusy then 1 else 0)) :
    (t + m.counts).Owes (n + if m.stage.isBusy then 1 else 0) := by
  unfold Tally.Owes at *
  rw [Tally.add_eq]
  obtain ⟨file, stage⟩ := j
  cases stage with
  | begun =>
    unfold Job.next? at h
    dsimp only at h
    split at h <;> cases h <;> simp [Stage.isBusy, Tally.zero_eq] at ht ⊢ <;> omega
  | collected => cases h
  | _ =>
    cases h
    simp [Stage.isBusy, Tally.zero_eq] at ht ⊢
    omega

namespace WatchedPool

open Pool (busy)

variable {s : Scorer} {threads n : Nat} {p q : WatchedPool}

/-- One advance of one task, or a cancellation of the run. -/
inductive Move (s : Scorer) (threads : Nat) : WatchedPool → WatchedPool → Prop
  | step {p q : WatchedPool} (h : Step s threads p q) : Move s threads p q
  | strike {p : WatchedPool} : Move s threads p { p with cancelled := true }

/-- A pool whose tally owes the files of the tasks that hold a worker, beside others. -/
def OwesBusy (p : WatchedPool) (n : Nat) : Prop := p.pool.tally.Owes (n + busy p.pool.jobs)

/-- A move leaves a pool that owes the files of the tasks that hold a worker then. -/
theorem OwesBusy.move (hp : p.OwesBusy n) (h : Move s threads p q) : q.OwesBusy n := by
  -- The other tasks owe what they owed, so that the one that goes on settles its account over theirs.
  have hsplit : ∀ (front back : List Job) (j : Job), n + busy (front ++ j :: back) =
      n + busy front + busy back + if j.stage.isBusy then 1 else 0 := by
    intro front back j
    simp only [busy, List.countP_append, List.countP_cons]
    omega
  cases h with
  | strike => exact hp
  | step h =>
    cases h with
    | advance next begins =>
      unfold OwesBusy at *
      rw [hsplit] at *
      exact Job.owes_next? next hp
    | pass waits =>
      unfold OwesBusy at *
      rw [hsplit] at *
      rwa [waits] at hp

/-- However a pool goes on, its tally owes the files of the tasks that hold a worker. -/
theorem OwesBusy.moves (hp : p.OwesBusy n) (h : ReflTransGen (Move s threads) p q) : q.OwesBusy n := by
  induction h with
  | refl => exact hp
  | tail _ hmove ih => exact ih.move hmove

/-- A pool opens no accounts before its tasks begin. -/
theorem owesBusy_start {t : Tally} (ht : t.Owes n) (snapshot : Scorer.Snapshot) : (start t snapshot).OwesBusy n := by
  have hbusy : busy (start t snapshot).pool.jobs = 0 := by
    refine List.countP_eq_zero.2 fun j hj => ?_
    obtain ⟨file, -, rfl⟩ := List.mem_map.1 hj
    exact nofun
  unfold OwesBusy
  rwa [hbusy]

/-- A pool has settled its accounts when its tasks are over. -/
theorem OwesBusy.of_isOver (hp : p.OwesBusy n) (hover : ∀ j ∈ p.pool.jobs, j.stage.isOver = true) :
    p.pool.tally.Owes n := by
  have hbusy : busy p.pool.jobs = 0 := by
    refine List.countP_eq_zero.2 fun j hj => ?_
    rw [Stage.isBusy_eq_false_of_isOver (hover j hj)]
    exact Bool.false_ne_true
  unfold OwesBusy at hp
  rwa [hbusy] at hp

end WatchedPool

namespace Scorer

/-! ## Calls -/

/-- What a scorer can be asked for. -/
inductive Call where
  | score (identity : FileIdentity) (content : Bytes)
  | scoreAll (snapshot : Snapshot) (parallel : Bool)

/-- Whether the engine fails on the one file of a call. -/
def Call.fails (s : Scorer) : Call → Bool
  | score identity content => (s.failure? identity.path content).isSome
  | scoreAll _ _ => false

/-- A call leaves a tally for another one, whether or not the run is cancelled before it or on the way, and however
the call ends. -/
inductive Call.Leaves (s : Scorer) : Call → Tally → Tally → Prop
  /-- One file. -/
  | score {identity : FileIdentity} {content : Bytes} {t : Tally} (session : Session) :
    Leaves s (.score identity content) t (Run.exec (s.score identity content) ⟨session, t⟩).2.tally
  /-- Many files one after the other, or with a pool whose tasks take turns. -/
  | scoreAll {snapshot : Snapshot} {parallel : Bool} {t : Tally} (session : Session) (cancels : Nat → Bool) :
    Leaves s (.scoreAll snapshot parallel) t
      (Run.exec (s.scoreAllAmid cancels snapshot parallel) ⟨session, t⟩).2.tally
  /-- Many files with a pool that is left when its tasks are over, in whatever order they ran. -/
  | pool {snapshot : Snapshot} {t : Tally} {p : WatchedPool} (threads : Nat)
    (moves : ReflTransGen (WatchedPool.Move s threads) (WatchedPool.start t snapshot) p)
    (ended : ∀ j ∈ p.pool.jobs, j.stage.isOver = true) : Leaves s (.scoreAll snapshot true) t p.pool.tally

/-- The tally of a scorer after calls one after the other. -/
inductive History (s : Scorer) : List Call → Tally → Prop
  | fresh : History s [] {}
  | call {calls : List Call} {c : Call} {t t' : Tally} (before : History s calls t) (leaves : c.Leaves s t t') :
    History s (calls ++ [c]) t'

variable {s : Scorer} {n : Nat} {calls : List Call} {c : Call} {t t' : Tally}

/-- A call settles its accounts, unless the engine fails on its one file. -/
theorem Call.Leaves.owes (hquiet : ∀ file, s.interruptsAt file = false) (h : c.Leaves s t t') (ht : t.Owes n) :
    t'.Owes (n + if c.fails s then 1 else 0) := by
  cases h with
  | score session => exact s.owes_score _ _ ht
  | scoreAll session cancels => exact (settles_scoreAllAmid hquiet cancels _ _ n ⟨session, t⟩ ht).1
  | pool threads moves ended => exact ((WatchedPool.owesBusy_start ht _).moves moves).of_isOver ended

/-- After calls the tally owes the files on which the engine failed in a call of their own. -/
theorem History.owes (hquiet : ∀ file, s.interruptsAt file = false) (h : History s calls t) :
    t.Owes (calls.countP (Call.fails s)) := by
  induction h with
  | fresh => rfl
  | call _ leaves ih =>
    rw [List.countP_append, List.countP_singleton]
    exact leaves.owes hquiet ih

/-- After any calls of a scorer that is not interrupted, the files in the total are scored, clean or skipped, except
for one in each call for a single file on which the engine fails, so that the tally is balanced exactly if there was
no such call. A call for a single file passes a failure of the engine on unless the engine only rejects the source. -/
theorem accounts_of_history (s : Scorer) (hquiet : ∀ file, s.interruptsAt file = false) :
    (∀ calls t, History s calls t → t.total = t.scored + t.clean + t.skipped + calls.countP (Call.fails s) ∧
      (t.IsBalanced ↔ ∀ c ∈ calls, c.fails s = false)) ∧
    ∀ (identity : FileIdentity) (content : Bytes) (st : Scoring) (e : Failure),
      (Run.exec (s.score identity content) st).1 = .error e ↔
        s.engine.failure? identity.path = some e ∨ s.engine.failure? identity.path = none ∧
          ∃ source, s.sourceOf identity.path content = .ok source ∧
            s.engine.analyze identity.path source = .error e ∧ isRejection e = false := by
  refine ⟨fun calls t h => ?_, fun identity content st e => exec_score_eq_error_iff.trans failure?_eq_some_iff⟩
  have howes := h.owes hquiet
  refine ⟨howes, howes.isBalanced_iff.trans (List.countP_eq_zero.trans ?_)⟩
  exact forall₂_congr fun c _ => iff_of_eq (Bool.not_eq_true _)

/-- A scorer whose engine is never interrupted is not interrupted on any file. -/
theorem IsOrdinary.interruptsAt_eq (hs : s.IsOrdinary) (file : FileIdentity × Bytes) : s.interruptsAt file = false := by
  have hgoes := hs.examine_ne file.1.path file.2
  unfold interruptsAt
  split
  · next h => exact (hgoes h).elim
  · rfl

/-- An engine rejects one file, fails on another, and finds nothing in a third. All three are accounted for in one
call, and the second is not in a call of its own. -/
theorem accounts_of_history_failing :
    let boom : Failure := .fault (.other "ValueError" "boom")
    let engine : Engine :=
      { supports := fun _ => true
        analyze := fun path _ =>
          if path = "p" then .error (.triage (.parsing (.text "p") (.text "table") (.text "bad")))
          else if path = "v" then .error boom else .ok [] }
    let s : Scorer := { engine := engine }
    let failing : FileIdentity × Bytes := ({ uid := 1, path := "v" }, [98])
    let snapshot : Snapshot := [({ uid := 0, path := "p" }, [97]), failing, ({ uid := 2, path := "c" }, [99])]
    (∀ file, s.interruptsAt file = false) ∧
      (∀ t, History s [.scoreAll snapshot true, .score { uid := 0, path := "p" } [97]] t → t.IsBalanced) ∧
      (∀ t, History s [.scoreAll snapshot true, .score failing.1 failing.2] t →
        t.total = t.scored + t.clean + t.skipped + 1 ∧ ¬t.IsBalanced) ∧
      ∀ st, (Run.exec (s.score failing.1 failing.2) st).1 = .error boom := by
  intro boom engine s failing snapshot
  have hs : s.IsOrdinary := by
    refine ⟨fun _ => (Option.some_ne_none _).symm, fun path source => ?_, fun _ => rfl⟩
    change (if path = "p" then _ else if path = "v" then _ else _) ≠ Except.error Failure.interrupted
    split
    · exact nofun
    · split
      · exact fun h => Failure.noConfusion (Except.error.inj h)
      · exact nofun
  obtain ⟨hcalls, hscore⟩ := accounts_of_history s hs.interruptsAt_eq
  refine ⟨hs.interruptsAt_eq, fun t h => ?_, fun t h => ?_, fun st => ?_⟩
  · exact (hcalls _ t h).2.2 (by decide +kernel)
  · obtain ⟨htotal, hbalanced⟩ := hcalls _ t h
    exact ⟨htotal, fun hb => absurd (hbalanced.1 hb) (by decide +kernel)⟩
  · exact (hscore failing.1 failing.2 st boom).2 (.inr ⟨rfl, "b", rfl, rfl, rfl⟩)

/-- The engine fails on a file with a fault of value. The call for that file passes the fault on and leaves the file in
the total only. -/
theorem not_isBalanced_of_value_fault :
    let boom : Failure := .fault (.other "ValueError" "boom")
    let s : Scorer := { engine := { supports := fun _ => true, analyze := fun _ _ => .error boom } }
    let file : FileIdentity := { uid := 0, path := "a.txt" }
    (∀ file, s.interruptsAt file = false) ∧ History s [.score file [120]] { total := 1 } ∧
      ¬({ total := 1 } : Tally).IsBalanced ∧ (Run.exec (s.score file [120]) {}).1 = .error boom := by
  intro boom s file
  have hs : s.IsOrdinary := by
    refine ⟨fun _ => (Option.some_ne_none _).symm, fun _ _ => ?_, fun _ => rfl⟩
    exact fun h => Failure.noConfusion (Except.error.inj h)
  exact ⟨hs.interruptsAt_eq, .call .fresh (.score {}), nofun, rfl⟩

end Scorer

end Hotspots
