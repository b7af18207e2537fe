import Hotspots.Proofs.History.LiveRecords

/-!
# One live identity per path

A change may open an identity over one that is open: a rename onto an open path, from a path that the walk
has not seen. The record that was open there stays live and is seen by no later change. The books of a walk
say that nothing else leaves such a record, so that a history has one live identity per path, on which both
of its readers agree, exactly when these renames did not meet at a path with each other or with an identity
that is open in the end.
-/

namespace Hotspots.Walk

/-- Whether a change opens an identity over one that is open. -/
def shadows (w : Walk) (c : FileChange) : Bool :=
  c.kind == .renamed && (w.moved? c).isNone && w.isOpen c.path

/-- The paths at which the changes of a commit open an identity over one that is open. -/
def shadowed (time : Int) : Walk → List FileChange → List String
  | _, [] => []
  | w, c :: rest => (if w.shadows c then [c.path] else []) ++ shadowed time (w.apply time c) rest

/-- The paths at which operations open an identity over one that is open. -/
def shadowedBy : Walk → List Operation → List String
  | _, [] => []
  | w, .feed c :: rest => shadowed c.timestamp w c.changes ++ shadowedBy (w.feed c) rest
  | w, .backfill paths time :: rest => shadowedBy (w.backfill paths time) rest

/-- Touching a path leaves the books alone. -/
theorem Accounted.touch {unseen : List String} {w : Walk} (h : Accounted unseen w) (hw : w.Sound)
    (path : String) (time : Int) : Accounted unseen (w.touch path time) := by
  unfold Walk.touch
  split
  · next place hat => exact h.touchRecord hw hat time
  · next hclosed =>
    have hopened := h.openPath path time
    rwa [show w.isOpen path = false by simp [isOpen, hclosed]] at hopened

/-- A change hides a record exactly when it opens an identity over it. -/
theorem Accounted.apply {unseen : List String} {w : Walk} (h : Accounted unseen w) (hw : w.Sound)
    (time : Int) (c : FileChange) :
    Accounted ((if w.shadows c then [c.path] else []) ++ unseen) (w.apply time c) := by
  unfold Walk.apply shadows
  cases hkind : c.kind with
  | added => exact h.touch hw c.path time
  | modified => exact h.touch hw c.path time
  | deleted => exact h.close hw c.path time
  | renamed =>
    cases hmoved : w.moved? c with
    | some place => exact h.move hw hmoved time
    | none =>
      have hopened := h.openPath c.path time
      cases hopen : w.isOpen c.path with
      | false => simpa [hopen] using hopened
      | true => simpa [hopen] using hopened

/-- The changes of a commit hide the records over which they open identities. -/
theorem Accounted.foldl_apply {unseen : List String} {w : Walk} (h : Accounted unseen w) (hw : w.Sound)
    (time : Int) (changes : List FileChange) :
    Accounted (shadowed time w changes ++ unseen) (changes.foldl (Walk.apply time) w) := by
  induction changes generalizing w unseen with
  | nil => exact h
  | cons c rest ih =>
    refine (ih (h.apply hw time c) (hw.apply time c)).congr ?_ rfl fun _ => rfl
    rw [shadowed, ← List.append_assoc]
    exact List.perm_append_comm.append_right unseen

/-- Filling up hides nothing. -/
theorem Accounted.backfill {unseen : List String} {w : Walk} (h : Accounted unseen w) (paths : List String)
    (time : Int) : Accounted unseen (w.backfill paths time) := by
  refine backfill_induction h fun w path _ hclosed h => ?_
  have hopened := h.openPath path time
  rwa [hclosed] at hopened

/-- Operations hide the records over which they open identities. -/
theorem Accounted.foldl_perform {unseen : List String} {w : Walk} (h : Accounted unseen w) (hw : w.Sound)
    (operations : List Operation) :
    Accounted (shadowedBy w operations ++ unseen) (operations.foldl perform w) := by
  induction operations generalizing w unseen with
  | nil => exact h
  | cons operation rest ih =>
    cases operation with
    | backfill paths time => exact ih (h.backfill paths time) (hw.backfill paths time)
    | feed c =>
      have hfed : Accounted (shadowed c.timestamp w c.changes ++ unseen) (w.feed c) :=
        (h.foldl_apply hw c.timestamp c.changes).congr (List.Perm.refl _) rfl fun _ => rfl
      refine (ih hfed (hw.feed c)).congr ?_ rfl fun _ => rfl
      rw [shadowedBy, ← List.append_assoc]
      exact List.perm_append_comm.append_right unseen

/-- After a run the live records at a path are the open one and those over which others were opened. -/
theorem length_liveAt_run (operations : List Operation) (path : String) :
    ((run operations).history.liveAt path).length =
      (shadowedBy {} operations).count path + ((run operations).isOpen path).toNat := by
  have h := accounted_empty.foldl_perform sound_empty operations path
  rw [List.append_nil] at h
  rw [Nat.add_comm]
  exact h

/-- A history has one live identity per path, and its readers agree on it, exactly when no path has more
than one among the identities opened over others there and the one that is open in the end. In
particular this is so if no rename from an unseen path meets an open path. -/
theorem liveIdentities_unique_iff (operations : List Operation) :
    ((run operations).history.livePaths.Nodup ∧
      ∀ path, ((run operations).history.forPath path).map (·.identity) =
        Record.get? path (run operations).history.liveByPath) ↔
    ∀ path, (shadowedBy {} operations).count path + ((run operations).isOpen path).toNat ≤ 1 := by
  have hw : (run operations).Sound := sound_empty.foldl_perform operations
  rw [List.nodup_iff_count_le_one]
  simp only [ChurnHistory.count_livePaths, hw.readers_agree_iff, length_liveAt_run, and_self]

/-- A rename from an unseen path onto an open one leaves two live records there, of which the two readers
name different ones. -/
theorem liveIdentities_not_unique :
    let operations : List Operation :=
      [.feed { sha := "1", timestamp := 1, changes := [{ kind := .added, path := "b" }] },
       .feed { sha := "2", timestamp := 2,
               changes := [{ kind := .renamed, path := "b", oldPath := some "a" }] }]
    ¬(run operations).history.livePaths.Nodup ∧
      ((run operations).history.forPath "b").map (·.identity) ≠
        Record.get? "b" (run operations).history.liveByPath := by
  decide

end Hotspots.Walk
