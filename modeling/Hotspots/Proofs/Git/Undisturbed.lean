import Hotspots.Git.Reader
import Hotspots.Proofs.Record.Lookup
import Hotspots.Proofs.Run.Follows

/-!
# Reading a repository in a cancelled run

A run may be cancelled while any command runs. Nothing that reads a repository looks at the mark, so that reading
gives what it gives in a run that is never cancelled; and a mark stays, as does the one that a command leaves
(`Conversation.Notes`).
-/

namespace Hotspots

instance : LawfulSession Conversation where
  session_withSession _ _ := rfl
  withSession_withSession _ _ _ := rfl

/-- A repository whose commands are never interrupted by a cancellation. -/
def Repository.undisturbed (repository : Repository) : Repository :=
  { repository with cancels := fun _ _ => false }

/-- A reader of a repository whose commands are never interrupted by a cancellation. -/
def Reader.undisturbed (r : Reader) : Reader := { r with repository := r.repository.undisturbed }

namespace Conversation

/-- How often a command was run. -/
def timesRun (c : Conversation) (name : String) : Nat := (Record.get? name c.runs).getD 0

/-- What happens to the mark between two states: it stays, and there is one if the run was cancelled while a command
was run between them. -/
structure Notes (repository : Repository) (s s' : Conversation) : Prop where
  mark_stays : Run.isMarked s = true → Run.isMarked s' = true
  timesRun_le : ∀ name, s.timesRun name ≤ s'.timesRun name
  marked_of_cancels : ∀ name time, s.timesRun name < time → time ≤ s'.timesRun name →
    repository.cancels name time = true → Run.isMarked s' = true

variable {repository : Repository} {s s' : Conversation}

/-- Where no command is run, the mark has to stay. -/
theorem notes_of_runs_eq (hruns : s'.runs = s.runs) (hmark : Run.isMarked s = true → Run.isMarked s' = true) :
    Notes repository s s' := by
  have hsame : ∀ name, s'.timesRun name = s.timesRun name := fun name => by rw [timesRun, timesRun, hruns]
  refine ⟨hmark, fun name => Nat.le_of_eq (hsame name).symm, fun name time hlow hhigh _ => ?_⟩
  rw [hsame] at hhigh
  omega

/-- The notes of two stretches are those of both together. -/
theorem Notes.trans {s'' : Conversation} (h : Notes repository s s') (h' : Notes repository s' s'') :
    Notes repository s s'' := by
  refine ⟨fun hmark => h'.mark_stays (h.mark_stays hmark),
    fun name => Nat.le_trans (h.timesRun_le name) (h'.timesRun_le name), fun name time hlow hhigh hcancels => ?_⟩
  rcases Nat.lt_or_ge (s'.timesRun name) time with hafter | hbefore
  · exact h'.marked_of_cancels name time hafter hhigh hcancels
  · exact h'.mark_stays (h.marked_of_cancels name time hlow hbefore hcancels)

/-- The log and cancellations respect the notes. -/
theorem isCourse_notes (repository : Repository) : Run.IsCourse (Notes repository) where
  refl _ := notes_of_runs_eq rfl id
  trans := Notes.trans
  logged _ _ := notes_of_runs_eq rfl id
  marked _ := notes_of_runs_eq rfl fun _ => rfl

end Conversation

namespace Reader

open Conversation (Notes isCourse_notes notes_of_runs_eq)

variable {r : Reader}

/-! ## Commands -/

/-- The state after a command was run once more. -/
def counted (c : GitCommand) (s : Conversation) : Conversation :=
  { s with runs := Record.put c.name (s.timesRun c.name + 1) s.runs }

/-- A command is counted, and the run may be cancelled. -/
theorem exec_execute (repository : Repository) (c : GitCommand) (s : Conversation) :
    Run.exec (execute repository c) s = (.ok (repository.answer c),
      if repository.cancels c.name (s.timesRun c.name + 1) then Run.marked (counted c s) else counted c s) := by
  unfold execute
  rw [Run.exec_bind_of_ok (Run.exec_state s)]
  dsimp only
  rw [Run.exec_bind_of_ok (Run.exec_update _ s)]
  change Run.exec (if repository.cancels c.name (s.timesRun c.name + 1) = true then _ else _) (counted c s) = _
  cases repository.cancels c.name (s.timesRun c.name + 1) <;> rfl

/-- How often a command was run after another one. -/
theorem timesRun_counted (c : GitCommand) (s : Conversation) (name : String) :
    (counted c s).timesRun name = s.timesRun name + if name = c.name then 1 else 0 := by
  rw [Conversation.timesRun, counted, Record.get?_put]
  split
  · next h => rw [h, Option.getD_some]
  · rfl

/-- A command is answered whether or not the run is cancelled. -/
theorem follows_execute (repository : Repository) (c : GitCommand) :
    Run.Follows (Notes repository) (execute repository c) (execute repository.undisturbed c) := by
  intro s
  have hcalm : Run.calm (counted c s) = counted c (Run.calm s) := rfl
  have hcounts : ∀ name, s.timesRun name ≤ (counted c s).timesRun name := fun name => by
    rw [timesRun_counted]
    exact Nat.le_add_right _ _
  rw [exec_execute, exec_execute]
  cases hcancels : repository.cancels c.name (s.timesRun c.name + 1) with
  | true =>
    refine ⟨⟨fun _ => rfl, hcounts, fun _ _ _ _ _ => rfl⟩, .inr ?_⟩
    rw [if_pos rfl, Run.calm_marked, hcalm]
    rfl
  | false =>
    refine ⟨⟨id, hcounts, fun name time hlow hhigh hnow => ?_⟩, .inr ?_⟩
    · rw [if_neg (by simp), timesRun_counted] at hhigh
      split at hhigh
      · next hname =>
        obtain rfl : time = s.timesRun c.name + 1 := by
          rw [hname] at hlow hhigh
          omega
        rw [hname, hcancels] at hnow
        cases hnow
      · omega
    · rw [if_neg (by simp : ¬false = true), if_neg (by simp [Repository.undisturbed]), hcalm]
      rfl

/-- A command is run to its end whether or not the run is cancelled. -/
theorem follows_run (r : Reader) (c : GitCommand) :
    Run.Follows (Notes r.repository) (r.run c) (r.undisturbed.run c) := by
  have hR := isCourse_notes r.repository
  refine (follows_execute r.repository c).bind hR fun ending => ?_
  cases ending with
  | exited code output complaint => exact Run.follows_pure hR _
  | timedOut => exact Run.follows_fail hR _
  | missing => exact Run.follows_fail hR _
  | refused fault => exact Run.follows_fail hR _
  | interrupted => exact Run.follows_fail hR _

/-- The output of a command is the same whether or not the run is cancelled. -/
theorem follows_output (r : Reader) (c : GitCommand) :
    Run.Follows (Notes r.repository) (r.output c) (r.undisturbed.output c) := by
  have hR := isCourse_notes r.repository
  refine (follows_run r c).bind hR fun ⟨code, output, complaint⟩ => ?_
  dsimp only
  split
  · exact Run.follows_pure hR _
  · exact Run.follows_fail hR _

/-- Output is left unread whether or not the run is cancelled. -/
theorem follows_leave (repository : Repository) (isRunning : Bool) (unread : Bytes) :
    Run.Follows (Notes repository) (leave isRunning unread) (leave isRunning unread) :=
  Run.follows_update (fun _ => notes_of_runs_eq rfl id) fun _ => rfl

/-- A helper is given up whether or not the run is cancelled. -/
theorem follows_breakOff (repository : Repository) (kept : Bool) :
    Run.Follows (Notes repository) (breakOff kept) (breakOff kept) :=
  Run.follows_update (fun _ => notes_of_runs_eq rfl id) fun _ => rfl

/-- The helper is ended whether or not the run is cancelled. -/
theorem follows_close (repository : Repository) : Run.Follows (Notes repository) close close := by
  have hR := isCourse_notes repository
  refine Run.follows_state_bind fun s => ((follows_leave _ _ _).bind hR fun _ => ?_) s
  rw [show (Run.calm s).unsent = s.unsent from rfl]
  split
  · exact Run.follows_fail hR _
  · exact Run.follows_pure hR _

/-- What is done with a reader follows what is done with an undisturbed one. -/
theorem follows_openAt_bind {α : Type} {repository : Repository} {f f' : Reader → Talk α}
    (h : ∀ r, r.repository = repository → Run.Follows (Notes repository) (f r) (f' r.undisturbed))
    (path : String) (timeout : Value) (limits : Renames.Limits) :
    Run.Follows (Notes repository) (openAt repository path timeout limits >>= f)
      (openAt repository.undisturbed path timeout limits >>= f') := by
  have hR := isCourse_notes repository
  unfold openAt
  rw [show repository.undisturbed.refuses? = repository.refuses? from rfl,
    show repository.undisturbed.locate = repository.locate from rfl,
    show repository.undisturbed.waitFault? = repository.waitFault? from rfl]
  cases repository.refuses? path with
  | some fault => exact Run.follows_fail hR _
  | none =>
    cases repository.locate path with
    | none => exact Run.follows_fail hR _
    | some location =>
      dsimp only
      rw [bind_assoc, bind_assoc]
      refine (follows_execute repository .gitDir).bind hR fun ending => ?_
      cases openingFailure? location (repository.waitFault? timeout) ending with
      | some e => exact Run.follows_fail hR _
      | none =>
        dsimp only
        rw [bind_assoc, bind_assoc]
        exact (follows_leave _ _ _).bind hR fun _ =>
          h { repository := repository, location := location, timeout := timeout, limits := limits } rfl

/-! ## Revisions and objects -/

/-- Whether there are commits is the same whether or not the run is cancelled. -/
theorem follows_hasCommits (r : Reader) : Run.Follows (Notes r.repository) r.hasCommits r.undisturbed.hasCommits :=
  (follows_run r _).bind (isCourse_notes _) fun _ => Run.follows_pure (isCourse_notes _) _

/-- A revision names the same commit whether or not the run is cancelled. -/
theorem follows_resolve (r : Reader) (revision : String) :
    Run.Follows (Notes r.repository) (r.resolve revision) (r.undisturbed.resolve revision) := by
  have hR := isCourse_notes r.repository
  refine (follows_run r _).bind hR fun ⟨code, output, complaint⟩ => ?_
  dsimp only
  split
  · exact (Run.follows_ofFault hR _).bind hR fun _ => Run.follows_pure hR _
  · exact Run.follows_fail hR _

/-- A reply is read whether or not the run is cancelled. -/
theorem follows_readReply (r : Reader) (spec : String) (isRunning : Bool) (printed : Bytes) :
    Run.Follows (Notes r.repository) (r.readReply spec isRunning printed)
      (r.undisturbed.readReply spec isRunning printed) := by
  have hR := isCourse_notes r.repository
  unfold readReply
  rcases readLine printed with ⟨header, rest⟩
  dsimp only
  refine (follows_leave _ _ _).bind hR fun _ => ?_
  split
  · exact Run.follows_fail hR _
  · split
    · exact Run.follows_fail hR _
    · refine (Run.follows_ofFault hR _).bind hR fun ⟨kind, size⟩ => ?_
      refine (Run.follows_ofFault hR _).bind hR fun ⟨content, rest⟩ => ?_
      refine (follows_leave _ _ _).bind hR fun _ => ?_
      split
      · exact Run.follows_pure hR _
      · exact Run.follows_fail hR _

/-- An object is read whether or not the run is cancelled. -/
theorem follows_readObject (r : Reader) (spec : String) :
    Run.Follows (Notes r.repository) (r.readObject spec) (r.undisturbed.readObject spec) := by
  have hR := isCourse_notes r.repository
  refine Run.follows_state_bind fun s => ?_
  -- The state that is read decides which reply is read, and the mark has no part in that.
  have hcount : Run.Follows (Notes r.repository)
      (Run.update fun s : Conversation => { s with requests := s.requests + 1 })
      (Run.update fun s : Conversation => { s with requests := s.requests + 1 }) :=
    Run.follows_update (fun _ => notes_of_runs_eq rfl id) fun _ => rfl
  refine (hcount.bind hR fun _ => ?_) s
  rw [show send (r.undisturbed.repository.replyAt (Run.calm s).requests) ((Run.calm s).helper.getD [])
      (Pieces.splitOn 10 (Utf8.encode spec)) = send (r.repository.replyAt s.requests) (s.helper.getD [])
      (Pieces.splitOn 10 (Utf8.encode spec)) from rfl]
  cases send (r.repository.replyAt s.requests) (s.helper.getD []) (Pieces.splitOn 10 (Utf8.encode spec)) with
  | running printed => exact follows_readReply r spec true printed
  | ended printed => exact follows_readReply r spec false printed
  | broken kept => exact (follows_breakOff _ _).bind hR fun _ => Run.follows_fail hR _

/-! ## Trees -/

/-- The files of a revision are the same whether or not the run is cancelled. -/
theorem follows_treeEntries (r : Reader) (revision : String) :
    Run.Follows (Notes r.repository) (r.treeEntries revision) (r.undisturbed.treeEntries revision) := by
  have hR := isCourse_notes r.repository
  refine (follows_resolve r revision).bind hR fun sha => (follows_output r _).bind hR fun listing => ?_
  exact (Run.follows_ofFault hR _).bind hR fun _ => Run.follows_pure hR _

/-- The files of a revision in order are the same whether or not the run is cancelled. -/
theorem follows_listFiles (r : Reader) (revision : String) :
    Run.Follows (Notes r.repository) (r.listFiles revision) (r.undisturbed.listFiles revision) :=
  (follows_treeEntries r revision).bind (isCourse_notes _) fun _ => Run.follows_pure (isCourse_notes _) _

/-- Contents are read whether or not the run is cancelled. -/
theorem follows_readAll (r : Reader) (revision : String) (entries : List (String × String))
    (contents : List (String × Bytes)) (paths : List String) :
    Run.Follows (Notes r.repository) (r.readAll revision entries contents paths)
      (r.undisturbed.readAll revision entries contents paths) := by
  have hR := isCourse_notes r.repository
  induction paths generalizing contents with
  | nil => exact Run.follows_pure hR _
  | cons path rest ih =>
    rw [readAll, readAll]
    cases Record.get? path entries with
    | none => exact Run.follows_fail hR _
    | some oid => exact (follows_readObject r oid).bind hR fun content => ih _

/-- The contents of files are the same whether or not the run is cancelled. -/
theorem follows_snapshot (r : Reader) (revision : String) (paths : Option (List String)) :
    Run.Follows (Notes r.repository) (r.snapshot revision paths) (r.undisturbed.snapshot revision paths) :=
  (follows_treeEntries r revision).bind (isCourse_notes _) fun _ => follows_readAll r _ _ _ _

end Reader

/-! ## Logs and renames -/

section Generic

variable {σ : Type} [HasSession σ] [LawfulSession σ] {R : σ → σ → Prop}

/-- A line of a log is read whether or not the run is cancelled. -/
theorem RawLog.follows_changeOfLine (hR : Run.IsCourse R) (line : String) :
    Run.Follows R (changeOfLine line : Run σ (Option FileChange)) (changeOfLine line) := by
  have hignored : ∀ reason, Run.Follows R (ignored reason : Run σ (Option FileChange)) (ignored reason) :=
    fun reason => (Run.follows_log hR _ _).bind hR fun _ => Run.follows_pure hR _
  have hchangeAt : ∀ c kind path, Run.Follows R (changeAt c kind path : Run σ (Option FileChange))
      (changeAt c kind path) := fun c kind path =>
    (Run.follows_ofFault hR _).bind hR fun _ => Run.follows_pure hR _
  have hchange : ∀ c path, Run.Follows R (change c path : Run σ (Option FileChange)) (change c path) := by
    intro c path
    unfold change
    split
    · exact hignored _
    · split
      · split
        · exact hignored _
        · exact hchangeAt _ _ _
      · exact hchangeAt _ _ _
  unfold changeOfLine
  split
  · split
    split
    · exact Run.follows_pure hR _
    · split
      · exact Run.follows_pure hR _
      · exact hchange _ _
  · exact Run.follows_pure hR _

/-- A log is read whether or not the run is cancelled. -/
theorem RawLog.follows_commits (hR : Run.IsCourse R) (location log : String) :
    Run.Follows R (commits location log : Run σ (List Commit)) (commits location log) := by
  have hlines : ∀ lines, Run.Follows R (changesOfLines lines : Run σ (List FileChange)) (changesOfLines lines) := by
    intro lines
    induction lines with
    | nil => exact Run.follows_pure hR _
    | cons line rest ih =>
      exact (follows_changeOfLine hR _).bind hR fun _ => ih.bind hR fun _ => Run.follows_pure hR _
  have hrecord : ∀ record, Run.Follows R (commitOfRecord location record : Run σ (Option Commit))
      (commitOfRecord location record) := by
    intro record
    unfold commitOfRecord
    split
    · exact Run.follows_pure hR _
    · dsimp only
      split
      · exact Run.follows_pure hR _
      · split
        · exact Run.follows_fail hR _
        · exact (hlines _).bind hR fun _ => (Run.follows_ofFault hR _).bind hR fun _ => Run.follows_pure hR _
  have hrecords : ∀ records, Run.Follows R (commitsOfRecords location records : Run σ (List Commit))
      (commitsOfRecords location records) := by
    intro records
    induction records with
    | nil => exact Run.follows_pure hR _
    | cons record rest ih =>
      exact (hrecord record).bind hR fun _ => ih.bind hR fun _ => Run.follows_pure hR _
  exact hrecords _

/-- Renames are found whether or not the run is cancelled. -/
theorem Renames.follows_reconcile (hR : Run.IsCourse R) {load load' : String → Run σ Bytes}
    (hload : ∀ oid, Run.Follows R (load oid) (load' oid)) (l : Limits) (changes : List FileChange) :
    Run.Follows R (reconcile load l changes) (reconcile load' l changes) := by
  have hloadAll : ∀ blob contents cs,
      Run.Follows R (loadAll load blob contents cs) (loadAll load' blob contents cs) := by
    intro blob contents cs
    induction cs generalizing contents with
    | nil => exact Run.follows_pure hR _
    | cons c rest ih => exact (hload _).bind hR fun _ => ih _
  have hsettle : ∀ s pairs, Run.Follows R (settle s pairs : Run σ Sides) (settle s pairs) := fun s pairs =>
    (Run.follows_logAll hR _).bind hR fun _ => Run.follows_pure hR _
  have hcontents : ∀ s, Run.Follows R (reconcileContents load l s) (reconcileContents load' l s) := by
    intro s
    unfold reconcileContents
    split
    · exact (Run.follows_log hR _ _).bind hR fun _ => Run.follows_pure hR _
    · exact (hloadAll _ _ _).bind hR fun _ => (hloadAll _ _ _).bind hR fun _ => hsettle _ _
  refine (hsettle _ _).bind hR fun left => ?_
  split
  · exact (hcontents left).bind hR fun _ => Run.follows_pure hR _
  · exact Run.follows_pure hR _

end Generic

namespace Reader

open Conversation (Notes isCourse_notes)

/-- The renames of commits are found whether or not the run is cancelled. -/
theorem follows_reconcileAll (r : Reader) (commits : List Commit) :
    Run.Follows (Notes r.repository) (r.reconcileAll commits) (r.undisturbed.reconcileAll commits) := by
  have hR := isCourse_notes r.repository
  induction commits with
  | nil => exact Run.follows_pure hR _
  | cons c rest ih =>
    exact (Renames.follows_reconcile hR (follows_readObject r) _ _).bind hR fun _ =>
      ih.bind hR fun _ => Run.follows_pure hR _

/-- The commits of a revision are the same whether or not the run is cancelled. -/
theorem follows_commits (r : Reader) (revision : String) (limit : Value) :
    Run.Follows (Notes r.repository) (r.commits revision limit) (r.undisturbed.commits revision limit) := by
  have hR := isCourse_notes r.repository
  refine (follows_hasCommits r).bind hR fun hasCommits => ?_
  split
  · refine (follows_resolve r revision).bind hR fun sha => (Run.follows_ofFault hR _).bind hR fun _ => ?_
    refine (follows_output r _).bind hR fun raw => ?_
    refine (RawLog.follows_commits hR _ _).bind hR fun listed => (follows_reconcileAll r _).bind hR fun commits => ?_
    have hlast : Run.Follows (Notes r.repository)
        (do Run.log .info ("Read " ++ natText commits.length ++ " commits from " ++ r.location)
            return commits : Talk (List Commit))
        (do Run.log .info ("Read " ++ natText commits.length ++ " commits from " ++ r.location)
            return commits) :=
      (Run.follows_log hR _ _).bind hR fun _ => Run.follows_pure hR _
    dsimp only
    split
    · exact (Run.follows_log hR _ _).bind hR fun _ => hlast
    · exact hlast
  · exact (Run.follows_log hR _ _).bind hR fun _ => Run.follows_pure hR _

end Reader

end Hotspots
