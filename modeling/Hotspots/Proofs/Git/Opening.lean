import Hotspots.Proofs.Git.Answered
import Hotspots.Proofs.Run.Ends

/-!
# Opening and closing a reader

A reader is opened if the system tells where the repository is and waits for the first command, and this command
succeeds (`of_returns_openAt`, `exists_returns_openAt`). Opening it and closing it leave a conversation clear: nothing
is unread, and no line is kept for a helper that could not be sent it. Closing fails only if a line was kept.
-/

namespace Hotspots

/-- Nothing is unread, and no line is kept to be sent once more. -/
def Conversation.IsClear (c : Conversation) : Prop := c.IsQuiet ∧ c.unsent = false

namespace Reader

open Conversation (IsClear)

variable {repository : Repository} {path location : String} {timeout : Value} {limits : Renames.Limits}
  {s s' : Conversation} {r : Reader} {E : Failure → Prop}

/-- The log does not touch the helper. -/
theorem isSilent_isClear : Run.IsSilent IsClear := fun _ _ h => h

/-- Commands leave the helper alone. -/
theorem keeps_isClear (repository : Repository) : repository.Keeps IsClear := by
  intro c s hs
  rw [exec_execute]
  dsimp only
  split <;> exact hs

/-! ## Closing -/

/-- A reader is closed exactly if no line is kept; the helper is ended then. -/
theorem returns_close_iff :
    close.Returns s () s' ↔ s.unsent = false ∧ s' = { s with helper := none, unsent := false } := by
  have hexec : Run.exec close s = Run.exec (if s.unsent then Run.fail keptLineFailure else pure ())
      { s with helper := none, unsent := false } := by
    unfold close
    rw [Run.exec_bind_of_ok (Run.exec_state s), Run.exec_bind_of_ok (exec_leave _ _ _)]
    rfl
  rw [Run.Returns, hexec]
  cases s.unsent with
  | false =>
    rw [if_neg Bool.false_ne_true, Run.exec_pure, Prod.mk.injEq]
    exact ⟨fun h => ⟨rfl, h.2.symm⟩, fun h => ⟨rfl, h.2.symm⟩⟩
  | true =>
    refine iff_of_false (fun h => ?_) fun h => ?_
    · cases h
    · cases h.1

/-- A reader for which no line is kept is closed without a failure. -/
theorem ends_close : Run.Ends IsClear close (fun _ => True) E := by
  intro s hs
  have hreturns : close.Returns s () { s with helper := none, unsent := false } := returns_close_iff.2 ⟨hs.2, rfl⟩
  rw [hreturns]
  exact ⟨⟨rfl, rfl⟩, trivial⟩

/-- A reader that is closed leaves nothing unread. -/
theorem ensures_close : Run.Ensures Conversation.IsQuiet close fun _ => True := by
  intro s a s' _ h
  obtain ⟨-, rfl⟩ := returns_close_iff.1 h
  exact ⟨trivial, rfl⟩

/-! ## Opening -/

/-- At a location that is there the first command decides. -/
theorem exec_openAt (hrefuses : repository.refuses? path = none) (hlocate : repository.locate path = some location)
    (timeout : Value) (limits : Renames.Limits) (s : Conversation) :
    Run.exec (openAt repository path timeout limits) s =
      match openingFailure? location (repository.waitFault? timeout) (repository.answer .gitDir) with
      | some e => (.error e, (Run.exec (execute repository .gitDir) s).2)
      | none =>
        (.ok { repository := repository, location := location, timeout := timeout, limits := limits },
          { (Run.exec (execute repository .gitDir) s).2 with helper := none, unsent := false }) := by
  unfold openAt
  rw [hrefuses, hlocate]
  dsimp only
  rw [Run.exec_bind_of_ok (exec_execute repository .gitDir s), exec_execute]
  cases openingFailure? location (repository.waitFault? timeout) (repository.answer .gitDir) <;> rfl

/-- A location can be opened if the system waits for the first command and this succeeds. -/
theorem openingFailure?_eq_none_iff {fault? : Option Fault} {ending : Ending} :
    openingFailure? location fault? ending = none ↔
      fault? = none ∧ ∃ output complaint, ending = .exited 0 output complaint := by
  unfold openingFailure?
  split
  · simp
  · simp
  · simp
  · next code output complaint => by_cases hcode : code = 0 <;> simp [hcode]
  · simp
  · simp

/-- A reader is opened only if the system tells whether a repository is there and waits for its commands. What was
kept for an earlier helper is forgotten then. -/
theorem of_returns_openAt (h : (openAt repository path timeout limits).Returns s r s') :
    r.repository = repository ∧ s'.IsClear ∧ repository.refuses? path = none ∧
      (repository.locate path).isSome = true ∧ repository.waitFault? timeout = none ∧ repository.Succeeds .gitDir := by
  cases hrefuses : repository.refuses? path with
  | some fault => simp [openAt, hrefuses, Run.returns_fail] at h
  | none =>
    cases hlocate : repository.locate path with
    | none => simp [openAt, hrefuses, hlocate, Run.returns_fail] at h
    | some location =>
      have hexec := (exec_openAt hrefuses hlocate timeout limits s).symm.trans h
      cases hopening : openingFailure? location (repository.waitFault? timeout) (repository.answer .gitDir) with
      | some e =>
        rw [hopening] at hexec
        cases hexec
      | none =>
        rw [hopening] at hexec
        cases hexec
        obtain ⟨hwait, hanswer⟩ := openingFailure?_eq_none_iff.1 hopening
        exact ⟨rfl, ⟨rfl, rfl⟩, rfl, rfl, hwait, hanswer⟩

/-- A repository that is opened is the one that is read. -/
theorem ensures_openAt : Run.Ensures Conversation.IsQuiet (openAt repository path timeout limits) fun r =>
    r.repository = repository := by
  intro s r s' _ h
  obtain ⟨hrepository, hclear, -⟩ := of_returns_openAt h
  exact ⟨hrepository, hclear.1⟩

/-- A repository that is there is opened if the system waits for its commands. -/
theorem exists_returns_openAt (hrefuses : repository.refuses? path = none)
    (hlocate : (repository.locate path).isSome = true) (hwait : repository.waitFault? timeout = none)
    (hgitDir : repository.Succeeds .gitDir) (limits : Renames.Limits) (s : Conversation) :
    ∃ r s', (openAt repository path timeout limits).Returns s r s' := by
  obtain ⟨location, hlocation⟩ := Option.isSome_iff_exists.1 hlocate
  have hexec := exec_openAt hrefuses hlocation timeout limits s
  rw [openingFailure?_eq_none_iff.2 ⟨hwait, hgitDir⟩] at hexec
  exact ⟨_, _, hexec⟩

end Reader

end Hotspots
