import Hotspots.Proofs.Git.Calls
import Hotspots.Proofs.Git.Described

/-!
# An empty history

Before the history of a revision is read, the repository is asked for its head, and a head that is no commit is taken
for a repository without commits. But the head may be on a branch that has no commit yet while other branches have some,
and the command may fail for another reason. An empty history stands for a repository without commits, and every failure
of a command is reported, exactly if a head that is no commit is found only in a repository without commits, and the
revision is either a commit or unknown (`owes_commits_iff`).
-/

namespace Hotspots

variable {f : ObjectFormat}

/-- A command ends as it does for a name that does not exist: with the code 1. -/
def Ending.IsUnknown (e : Ending) : Prop := ∃ output complaint, e = .exited 1 output complaint

/-- A repository without commits: no name is the name of one. -/
def Repository.HasNoCommit (repository : Repository) : Prop := ∀ name, (repository.answer (.verify name)).IsUnknown

/-- The repository with a head on a branch that has no commit yet. -/
def Repository.withUnbornHead (repository : Repository) : Repository :=
  { repository with
    answer := fun
      | .verify "HEAD" => .exited 1 [] []
      | command => repository.answer command }

/-- Every log that is printed lists a commit, for it begins at one. -/
def Repository.ListsCommits (repository : Repository) (f : ObjectFormat) : Prop :=
  ∀ newest sha, ∃ log : List (LoggedCommit f), log ≠ [] ∧ repository.Prints (.log newest sha) (LoggedCommit.log log)

namespace Reader

variable {r : Reader} {revision : String} {limit : Value} {c : Conversation} {code : Int}
  {output complaint : Bytes}

/-! ## The two questions -/

/-- What running a command to its end gives. -/
def ended (r : Reader) (command : GitCommand) : Except Failure (Int × Bytes × Bytes) :=
  match r.repository.answer command with
  | .exited code output complaint => .ok (code, output, complaint)
  | .timedOut => .error (r.lateFailure command)
  | .missing => .error (.access r.location noExecutable)
  | .refused fault => .error (.fault fault)
  | .interrupted => .error .interrupted

/-- The failure of a command that asks for a name, if it fails in another way than that there is no such name. -/
def failureOf? (r : Reader) (command : GitCommand) : Option Failure :=
  match r.ended command with
  | .ok (code, _, complaint) =>
    if code = 0 ∨ code = 1 then none
    else some (commandFailure r.location command.arguments code (Utf8.decodeLossy complaint))
  | .error e => some e

/-- A command gives its code and what it prints if it comes to an end. -/
theorem ended_eq_ok_iff {command : GitCommand} : r.ended command = .ok (code, output, complaint) ↔
    r.repository.answer command = .exited code output complaint := by
  unfold ended
  cases r.repository.answer command <;> simp

/-- A command that is run to its end leaves the helper alone. -/
theorem exec_run (r : Reader) (command : GitCommand) (c : Conversation) :
    ∃ c', Run.exec (r.run command) c = (r.ended command, c') ∧ SameHelper c c' := by
  obtain ⟨c', hexec, hhelper⟩ := isApart_execute r.repository command c
  have hanswer : ending (execute r.repository command) = .ok (r.repository.answer command) := by
    rw [ending, exec_execute]
  rw [hanswer] at hexec
  refine ⟨c', ?_, hhelper⟩
  rw [run, Run.exec_bind_of_ok hexec, ended]
  cases r.repository.answer command <;> rfl

/-- The history that is read once the revision is found, given what is printed for it. -/
def historyOf (r : Reader) (limit : Value) (printed : Bytes) : Talk (List Commit) := do
  let sha := Blank.trimText (← Run.ofFault (asciiText printed))
  Run.ofFault (checkLimit limit)
  let raw ← r.output (.log (askedLimit limit) sha)
  let listed ← RawLog.commits r.location (Utf8.decodeLossy raw)
  r.reported limit (some listed)

/-- What is read once the head is known to be a commit. -/
def revisionHistory (r : Reader) (revision : String) (limit : Value) : Talk (List Commit) := do
  let (code, printed, _) ← r.run (.verify revision)
  if code = 0 then r.historyOf limit printed else Run.fail (.notFound revision none)

/-- The commits are the history of the revision if the head is a commit. -/
theorem commits_eq_revisionHistory (r : Reader) (revision : String) (limit : Value) :
    r.commits revision limit = (do
      if ← r.hasCommits then r.revisionHistory revision limit else r.reported limit none) := by
  rw [commits_eq, loggedCommits, bind_assoc]
  congr
  funext hasCommits
  cases hasCommits with
  | false => simp
  | true =>
    simp only [if_true, bind_assoc, resolve, revisionHistory, historyOf]
    congr
    funext answer
    obtain ⟨code, printed, complaint⟩ := answer
    by_cases hcode : code = 0
    · simp only [if_pos hcode, bind_assoc, pure_bind]
    · simp only [if_neg hcode]
      rfl

/-- How reading commits ends is decided by the answers to the two questions, and if both are names of commits by the
history that is read. -/
theorem end_commits (r : Reader) (revision : String) (limit : Value) (c : Conversation) :
    ∃ c', SameHelper c c' ∧ (Run.exec (r.commits revision limit) c).1 =
      match r.ended (.verify "HEAD") with
      | .error e => .error e
      | .ok (code, _, _) =>
        if code = 0 then
          match r.ended (.verify revision) with
          | .error e => .error e
          | .ok (code, printed, _) =>
            if code = 0 then (Run.exec (r.historyOf limit printed) c').1 else .error (.notFound revision none)
        else .ok [] := by
  obtain ⟨c₁, hhead, hhelper₁⟩ := exec_run r (.verify "HEAD") c
  obtain ⟨c₂, hrevision, hhelper₂⟩ := exec_run r (.verify revision) c₁
  refine ⟨c₂, ⟨hhelper₂.1.trans hhelper₁.1, hhelper₂.2.trans hhelper₁.2⟩, ?_⟩
  rw [commits_eq_revisionHistory, hasCommits, bind_assoc]
  cases hanswer : r.ended (.verify "HEAD") with
  | error e => rw [Run.exec_bind_of_error (hanswer ▸ hhead)]
  | ok answer =>
    obtain ⟨code, output, complaint⟩ := answer
    rw [Run.exec_bind_of_ok (hanswer ▸ hhead), pure_bind]
    dsimp only
    by_cases hcode : code = 0
    · rw [if_pos (decide_eq_true hcode), if_pos hcode, revisionHistory]
      cases hanswer' : r.ended (.verify revision) with
      | error e => rw [Run.exec_bind_of_error (hanswer' ▸ hrevision)]
      | ok answer' =>
        rw [Run.exec_bind_of_ok (hanswer' ▸ hrevision)]
        dsimp only
        split <;> rfl
    · rw [if_neg (by simp [hcode]), if_neg hcode]
      rfl

/-! ## What is owed to the caller -/

/-- A history that is read is not empty. -/
theorem end_historyOf_ne_nil (h : r.repository.ListsCommits f) (limit : Value) (printed : Bytes) (c : Conversation) :
    (Run.exec (r.historyOf limit printed) c).1 ≠ .ok [] := by
  have hkeeps : r.repository.Keeps fun _ => True := fun _ _ _ => trivial
  have hne : Run.Ensures (fun _ => True) (r.historyOf limit printed) fun commits => commits ≠ [] := by
    refine (Run.ensures_ofFault _).bind fun text _ => (Run.ensures_ofFault _).bind fun _ _ => ?_
    obtain ⟨log, hlog, hprints⟩ := h (askedLimit limit) (Blank.trimText text)
    refine (gives_output (T := False) hkeeps hprints False.elim).ensures.bind ?_
    rintro _ rfl
    refine (LoggedCommit.gives_commits (T := False) (fun _ _ _ => trivial) r.location log).ensures.bind ?_
    rintro _ rfl
    refine (ensures_reported _).imp fun commits hcommits hnil => hlog ?_
    rw [hnil, List.forall₂_nil_left_iff, List.map_eq_nil_iff] at hcommits
    exact hcommits
  intro hnil
  obtain ⟨c', hreturns⟩ := Run.exists_returns (a := []) (by rw [hnil]; rfl)
  exact (hne c [] c' trivial hreturns).1 rfl

/-- What a caller may get who asks for the commits of a revision: the history of the revision if it is the name of a
commit; the failure of a command that asks for it or for the head; that the revision is not there if it is unknown; and
nothing if there is no commit at all. -/
inductive Owes (r : Reader) (revision : String) (limit : Value) (c : Conversation) :
    Except Failure (List Commit) → Prop
  | history {printed complaint : Bytes} {c' : Conversation}
    (hanswer : r.repository.answer (.verify revision) = .exited 0 printed complaint) (hhelper : SameHelper c c') :
    Owes r revision limit c (Run.exec (r.historyOf limit printed) c').1
  | failure {command : GitCommand} {e : Failure} (hcommand : command = .verify "HEAD" ∨ command = .verify revision)
    (hfailure : r.failureOf? command = some e) : Owes r revision limit c (.error e)
  | unknown (hunknown : (r.repository.answer (.verify revision)).IsUnknown) :
    Owes r revision limit c (.error (.notFound revision none))
  | empty (hnone : r.repository.HasNoCommit) : Owes r revision limit c (.ok [])

/-- Nothing is owed only by a repository without commits. -/
theorem hasNoCommit_of_owes_nil (h : r.repository.ListsCommits f) (howes : r.Owes revision limit c (.ok [])) :
    r.repository.HasNoCommit := by
  generalize hnil : (.ok [] : Except Failure (List Commit)) = result at howes
  cases howes with
  | history _ _ => exact absurd hnil.symm (end_historyOf_ne_nil h _ _ _)
  | failure _ _ => cases hnil
  | unknown _ => cases hnil
  | empty hnone => exact hnone

/-- That a revision is not there is owed only if it is unknown, once the questions are answered. -/
theorem isUnknown_of_owes_notFound (hhead : r.failureOf? (.verify "HEAD") = none)
    (hanswer : r.repository.answer (.verify revision) = .exited code output complaint) (hcode : code ≠ 0)
    (howes : r.Owes revision limit c (.error (.notFound revision none))) :
    (r.repository.answer (.verify revision)).IsUnknown := by
  generalize hmissing : (.error (.notFound revision none) : Except Failure (List Commit)) = result at howes
  cases howes with
  | history hsuccess _ =>
    cases hanswer.symm.trans hsuccess
    exact absurd rfl hcode
  | @failure command e hcommand hfailure =>
    rcases hcommand with rfl | rfl
    · rw [hhead] at hfailure
      cases hfailure
    · rw [failureOf?, ended, hanswer] at hfailure
      dsimp only at hfailure
      split at hfailure <;> cases hfailure
      cases hmissing
  | unknown hunknown => exact hunknown
  | empty _ => cases hmissing

/-! ## The law -/

/-- A caller gets what is owed exactly if a head that is no commit is found only in a repository without commits, and a
revision that is asked for is a commit or unknown. -/
theorem owes_commits_iff (h : r.repository.ListsCommits f) (revision : String) (limit : Value) :
    (∀ c, r.Owes revision limit c (Run.exec (r.commits revision limit) c).1) ↔
      (∀ code output complaint, r.repository.answer (.verify "HEAD") = .exited code output complaint → code ≠ 0 →
        r.repository.HasNoCommit) ∧
      (∀ headOutput headComplaint code output complaint,
        r.repository.answer (.verify "HEAD") = .exited 0 headOutput headComplaint →
        r.repository.answer (.verify revision) = .exited code output complaint → code = 0 ∨ code = 1) := by
  constructor
  · intro howes
    obtain ⟨c', -, hend⟩ := end_commits r revision limit {}
    refine ⟨fun code output complaint hhead hcode => ?_,
      fun headOutput headComplaint code output complaint hhead hrevision => ?_⟩
    · rw [ended_eq_ok_iff.2 hhead] at hend
      dsimp only at hend
      rw [if_neg hcode] at hend
      exact hasNoCommit_of_owes_nil h (hend ▸ howes {})
    · rw [ended_eq_ok_iff.2 hhead, ended_eq_ok_iff.2 hrevision] at hend
      dsimp only at hend
      by_cases hcode : code = 0
      · exact .inl hcode
      · rw [if_pos rfl, if_neg hcode] at hend
        have hanswered : r.failureOf? (.verify "HEAD") = none := by
          rw [failureOf?, ended_eq_ok_iff.2 hhead]
          rfl
        obtain ⟨_, _, hunknown⟩ := isUnknown_of_owes_notFound hanswered hrevision hcode (hend ▸ howes {})
        cases hrevision.symm.trans hunknown
        exact .inr rfl
  · rintro ⟨hhead, hrevision⟩ c
    obtain ⟨c', hhelper, hend⟩ := end_commits r revision limit c
    rw [hend]
    cases hended : r.ended (.verify "HEAD") with
    | error e => exact .failure (.inl rfl) (by rw [failureOf?, hended])
    | ok answer =>
      obtain ⟨code, output, complaint⟩ := answer
      have hanswer := ended_eq_ok_iff.1 hended
      dsimp only
      by_cases hcode : code = 0
      · subst hcode
        rw [if_pos rfl]
        cases hended' : r.ended (.verify revision) with
        | error e => exact .failure (.inr rfl) (by rw [failureOf?, hended'])
        | ok answer' =>
          obtain ⟨code', printed, complaint'⟩ := answer'
          have hanswer' := ended_eq_ok_iff.1 hended'
          dsimp only
          rcases hrevision _ _ _ _ _ hanswer hanswer' with rfl | rfl
          · rw [if_pos rfl]
            exact .history hanswer' hhelper
          · rw [if_neg (by decide)]
            exact .unknown ⟨_, _, hanswer'⟩
      · rw [if_neg hcode]
        exact .empty (hhead code output complaint hanswer hcode)

/-- In a repository of one commit that is at the head of every branch, a caller gets what is owed. -/
theorem owes_commits_of_one_commit :
    let sha : ObjectId .sha1 := .repeated .sha1 '1' (by decide) (by decide)
    let log : List (LoggedCommit .sha1) := [
      { sha := sha, parents := [], time := 1700000000, length_le := by decide, emptyLines := 0, differences := [] }]
    let r : Reader := { repository := .ofLog sha log [] fun _ => none, location := "." }
    r.repository.ListsCommits .sha1 ∧
      ∀ revision limit c, r.Owes revision limit c (Run.exec (r.commits revision limit) c).1 := by
  intro sha log r
  have hlists : r.repository.ListsCommits .sha1 := fun _ _ =>
    ⟨log, List.cons_ne_nil _ _, Repository.prints_of_answer rfl⟩
  refine ⟨hlists, fun revision limit => (owes_commits_iff hlists revision limit).2 ⟨?_, ?_⟩⟩
  · intro code output complaint hanswer hcode
    injection hanswer with hzero
    exact absurd hzero.symm hcode
  · intro _ _ code output complaint _ hanswer
    injection hanswer with hzero
    exact .inl hzero.symm

/-- With the head on a branch that has no commit yet, the history of a branch that has one is read as empty. -/
theorem not_owes_of_unborn_head :
    let sha : ObjectId .sha1 := .repeated .sha1 '1' (by decide) (by decide)
    let log : List (LoggedCommit .sha1) := [
      { sha := sha, parents := [], time := 1700000000, length_le := by decide, emptyLines := 0, differences := [] }]
    let r : Reader := { repository := (Repository.ofLog sha log [] fun _ => none).withUnbornHead, location := "." }
    r.repository.ListsCommits .sha1 ∧ r.repository.Succeeds (.verify "main") ∧
      (Run.exec (r.commits "main" (.int 0)) {}).1 = .ok [] ∧
      ¬r.Owes "main" (.int 0) {} (Run.exec (r.commits "main" (.int 0)) {}).1 := by
  intro sha log r
  have hlists : r.repository.ListsCommits .sha1 := fun _ _ =>
    ⟨log, List.cons_ne_nil _ _, Repository.prints_of_answer rfl⟩
  have hmain : r.repository.Succeeds (.verify "main") := ⟨_, _, rfl⟩
  have hnil : (Run.exec (r.commits "main" (.int 0)) {}).1 = .ok [] := by
    obtain ⟨c', -, hend⟩ := end_commits r "main" (.int 0) {}
    exact hend
  refine ⟨hlists, hmain, hnil, fun howes => ?_⟩
  rw [hnil] at howes
  obtain ⟨output, complaint, hsuccess⟩ := hmain
  obtain ⟨_, _, hunknown⟩ := hasNoCommit_of_owes_nil hlists howes "main"
  cases hsuccess.symm.trans hunknown

end Reader

end Hotspots
