import Hotspots.Proofs.History.EditedMoves
import Hotspots.Proofs.History.MovedFiles
import Hotspots.Proofs.History.TreeTracking

/-!
# Moved files keep their churn

A walk applies the renames of a commit one after the other, in the order of the new paths. If files are moved to paths
that are not open, no rename meets the record of another one, so that the walk ends as if all records had followed their
files at once (`Awaits.records_foldl_apply`). A commit that only moves files therefore counts nothing, and neither opens
nor closes a record (`moved_files_keep_churn`).
-/

namespace Hotspots

variable {f : ObjectFormat}

/-- Nothing is less than itself. -/
theorem Binary64.lt_self (x : Binary64) : x.lt x = false := by cases x <;> simp [lt]

namespace ChurnRecord

/-- A record after files were moved from old paths to new ones: if it is live at an old path, it follows the file. -/
def followed (moves : List (String × String)) (r : ChurnRecord) : ChurnRecord :=
  match moves.find? fun m => r.standsAt m.1 with
  | some m => r.moveTo m.2
  | none => r

variable {r : ChurnRecord} {m : String × String} {moves : List (String × String)}

/-- A record stands at its path. -/
theorem path_of_standsAt {path : String} (h : r.standsAt path = true) : r.identity.path = path := by
  simp only [standsAt, Bool.and_eq_true, beq_iff_eq] at h
  exact h.1

/-- A record stands at one path at most. -/
theorem eq_of_standsAt {path other : String} (h : r.standsAt path = true) (h' : r.standsAt other = true) :
    path = other := (path_of_standsAt h).symm.trans (path_of_standsAt h')

/-- A live record that follows its file stands at the new path. -/
theorem standsAt_moveTo {path : String} (h : r.standsAt path = true) (new : String) :
    (r.moveTo new).standsAt new = true := by
  simp only [standsAt, Bool.and_eq_true, beq_iff_eq] at h ⊢
  exact ⟨rfl, h.2⟩

/-- A record that is live at none of the old paths stays as it is. -/
theorem followed_eq_self (h : ∀ m ∈ moves, r.standsAt m.1 = false) : r.followed moves = r := by
  have hnone : (moves.find? fun m => r.standsAt m.1) = none :=
    List.find?_eq_none.2 fun m hm => ne_true_of_eq_false (h m hm)
  rw [followed, hnone]

/-- A record that is live at an old path follows its file, if every file has one new path. -/
theorem followed_eq_moveTo (hold : (moves.map Prod.fst).Nodup) (hm : m ∈ moves) (h : r.standsAt m.1 = true) :
    r.followed moves = r.moveTo m.2 := by
  obtain ⟨m', hfound⟩ := Option.isSome_iff_exists.1
    ((List.find?_isSome (p := fun m : String × String => r.standsAt m.1)).2 ⟨m, hm, h⟩)
  have hstands : r.standsAt m'.1 = true := by simpa only using List.find?_some hfound
  have hsame : m' = m := List.inj_on_of_nodup_map hold (List.mem_of_find?_eq_some hfound) hm (eq_of_standsAt hstands h)
  rw [followed, hfound, hsame]

/-- Every record follows a file or stays as it is. -/
theorem followed_cases (r : ChurnRecord) (moves : List (String × String)) :
    (∃ m ∈ moves, r.standsAt m.1 = true) ∨ ∀ m ∈ moves, r.standsAt m.1 = false := by
  by_cases h : ∃ m ∈ moves, r.standsAt m.1 = true
  · exact .inl h
  · exact .inr fun m hm => Bool.eq_false_iff.2 fun hstands => h ⟨m, hm, hstands⟩

/-- The order of moves makes no difference. -/
theorem followed_eq_of_perm {other : List (String × String)} (h : other.Perm moves) (hold : (moves.map Prod.fst).Nodup)
    (r : ChurnRecord) : r.followed other = r.followed moves := by
  rcases r.followed_cases moves with ⟨m, hm, hstands⟩ | hnone
  · rw [followed_eq_moveTo hold hm hstands,
      followed_eq_moveTo ((h.map _).nodup_iff.2 hold) (h.mem_iff.2 hm) hstands]
  · rw [followed_eq_self hnone, followed_eq_self fun m hm => hnone m (h.mem_iff.1 hm)]

/-- Moves one after the other are moves at once, if no file moves to the old path of a later one. -/
theorem followed_cons (hold : ((m :: moves).map Prod.fst).Nodup) (hnew : m.2 ∉ moves.map Prod.fst) (r : ChurnRecord) :
    (r.followed [m]).followed moves = r.followed (m :: moves) := by
  have hfirst : ([m].map Prod.fst).Nodup := List.nodup_singleton _
  by_cases hstands : r.standsAt m.1 = true
  · have hkept : ∀ m' ∈ moves, (r.moveTo m.2).standsAt m'.1 = false := fun m' hm' =>
      Bool.eq_false_iff.2 fun hmoved =>
        hnew (eq_of_standsAt (standsAt_moveTo hstands m.2) hmoved ▸ List.mem_map_of_mem hm')
    rw [followed_eq_moveTo hfirst (List.mem_singleton_self m) hstands, followed_eq_self hkept,
      followed_eq_moveTo hold List.mem_cons_self hstands]
  · have hskip : r.standsAt m.1 = false := Bool.eq_false_iff.2 hstands
    have hkept : r.followed [m] = r := followed_eq_self (List.forall_mem_singleton.2 hskip)
    rw [hkept, followed, followed, List.find?_cons, hskip]

end ChurnRecord

namespace Walk

variable {w : Walk} {before : Tree f} {m : String × String}

/-! ## The renames one by one -/

/-- The rename of an unchanged file is no edit. -/
theorem isEdited_renameOf (before : Tree f) (m : String × String) : isEdited (before.renameOf m) = false := by
  simp only [isEdited, Tree.renameOf, Tree.pairOf, Renames.equalPair, Renames.Pair.change]
  exact Binary64.lt_self _

/-- If nothing is open at the new path, then vacating both paths of a rename changes no record. -/
theorem records_vacated {c : FileChange} (hfree : w.isOpen c.path = false) (time : Int) :
    (w.vacated c time).history.records = w.history.records := by
  have hnone : ({ w with openAt := Record.erase (c.oldPath.getD "") w.openAt } : Walk).at? c.path = none := by
    change Record.get? c.path (Record.erase (c.oldPath.getD "") w.openAt) = none
    rw [Record.get?_erase]
    split
    · rfl
    · exact Option.not_isSome_iff_eq_none.1 (ne_true_of_eq_false hfree)
  rw [vacated, close, hnone]

/-- The rename of an open path moves its record. -/
theorem moved?_renameOf {place : Nat} (hat : w.at? m.1 = some place) (hne : m.1 ≠ "") :
    w.moved? (before.renameOf m) = some place := by
  have hold : (before.renameOf m).oldPath = some m.1 := rfl
  rw [moved?, hold]
  simpa [hne] using hat

/-- Paths that a rename does not name stay as they are. -/
theorem isOpen_apply_renameOf {path : String} (hnew : path ≠ m.2) (hold : path ≠ m.1) (time : Int) :
    (w.apply time (before.renameOf m)).isOpen path = w.isOpen path := by
  have htouched : path ∉ (before.renameOf m).touched := by
    change path ∉ [m.2, m.1]
    simp [hnew, hold]
  rw [isOpen, at?_apply_of_not_mem htouched, isOpen]

/-- A walk awaits moves: no record stands unseen, the old paths are open, and the new paths are not. -/
structure Awaits (w : Walk) (moves : List (String × String)) : Prop where
  sound : w.Sound
  accounted : Accounted [] w
  isOpen_old : ∀ m ∈ moves, w.isOpen m.1 = true
  isOpen_new : ∀ m ∈ moves, w.isOpen m.2 = false
  ne_empty : ∀ m ∈ moves, m.1 ≠ ""
  nodup_old : (moves.map Prod.fst).Nodup
  nodup_new : (moves.map Prod.snd).Nodup

namespace Awaits

variable {moves : List (String × String)}

/-- No file is moved to a path from which one is moved. -/
theorem old_ne_new (h : w.Awaits moves) {m m' : String × String} (hm : m ∈ moves) (hm' : m' ∈ moves) : m.1 ≠ m'.2 := by
  intro heq
  have hopen := h.isOpen_old m hm
  rw [heq, h.isOpen_new m' hm'] at hopen
  cases hopen

/-- The first rename moves a record. -/
theorem exists_moved? (h : w.Awaits (m :: moves)) (before : Tree f) :
    ∃ place, w.at? m.1 = some place ∧ w.moved? (before.renameOf m) = some place := by
  obtain ⟨place, hat⟩ := Option.isSome_iff_exists.1 (h.isOpen_old m List.mem_cons_self)
  exact ⟨place, hat, moved?_renameOf hat (h.ne_empty m List.mem_cons_self)⟩

/-- The first rename lets the record follow its file, and changes no other record. -/
theorem records_apply (h : w.Awaits (m :: moves)) (before : Tree f) (time : Int) :
    (w.apply time (before.renameOf m)).history.records = w.history.records.map (.followed [m]) := by
  obtain ⟨place, hat, hplace⟩ := h.exists_moved? before
  have hstep : w.apply time (before.renameOf m) = w.move place (before.renameOf m) time := by
    have hkind : (before.renameOf m).kind = .renamed := rfl
    rw [Walk.apply, hkind]
    dsimp only
    rw [hplace]
  obtain ⟨r, hr, honly⟩ := h.accounted.liveAt_eq h.sound hat
  have hmoved : r.followed [m] = r.moveTo m.2 :=
    ChurnRecord.followed_eq_moveTo (List.nodup_singleton m.1) (List.mem_singleton_self m)
      (ChurnHistory.standsAt_of_liveAt_eq honly)
  rw [hstep, records_move]
  refine List.ext_getElem? fun i => ?_
  rw [getElem?_records_modify, records_vacated (h.isOpen_new m List.mem_cons_self), List.getElem?_map]
  split
  · next heq =>
    rw [← heq, hr, Option.map_some, Option.map_some, relocated, isEdited_renameOf, if_neg Bool.false_ne_true, hmoved]
    rfl
  · next hother =>
    cases hi : w.history.records[i]? with
    | none => rfl
    | some a =>
      -- Another record that is live at the old path would be the same one, at the same place.
      have hskip : a.standsAt m.1 = false := by
        refine Bool.eq_false_iff.2 fun hstands => hother ?_
        have hmem : a ∈ w.history.liveAt m.1 := List.mem_filter.2 ⟨List.mem_of_getElem? hi, hstands⟩
        rw [honly, List.mem_singleton] at hmem
        have huid := h.sound.uid_eq i a hi
        rw [hmem, h.sound.uid_eq place r hr] at huid
        exact Int.natCast_inj.1 huid
      rw [Option.map_some, ChurnRecord.followed_eq_self (List.forall_mem_singleton.2 hskip)]

/-- After the first rename the other moves are awaited. -/
theorem apply (h : w.Awaits (m :: moves)) (before : Tree f) (time : Int) :
    (w.apply time (before.renameOf m)).Awaits moves where
  sound := h.sound.apply time _
  accounted := by
    obtain ⟨place, -, hplace⟩ := h.exists_moved? before
    have hshadows : w.shadows (before.renameOf m) = false := by
      rw [shadows, hplace]
      simp
    have happlied := h.accounted.apply h.sound time (before.renameOf m)
    rwa [hshadows] at happlied
  isOpen_old m' hm' := by
    have hlater : m' ∈ m :: moves := List.mem_cons_of_mem _ hm'
    have hne : m'.1 ≠ m.1 := fun heq => (List.nodup_cons.1 h.nodup_old).1 (heq ▸ List.mem_map_of_mem hm')
    rw [isOpen_apply_renameOf (h.old_ne_new hlater List.mem_cons_self) hne]
    exact h.isOpen_old m' hlater
  isOpen_new m' hm' := by
    have hlater : m' ∈ m :: moves := List.mem_cons_of_mem _ hm'
    have hne : m'.2 ≠ m.2 := fun heq => (List.nodup_cons.1 h.nodup_new).1 (heq ▸ List.mem_map_of_mem hm')
    rw [isOpen_apply_renameOf hne (h.old_ne_new List.mem_cons_self hlater).symm]
    exact h.isOpen_new m' hlater
  ne_empty m' hm' := h.ne_empty m' (List.mem_cons_of_mem _ hm')
  nodup_old := (List.nodup_cons.1 h.nodup_old).2
  nodup_new := (List.nodup_cons.1 h.nodup_new).2

/-- Renames that are awaited let every record follow its file, as if they were made at once. -/
theorem records_foldl_apply (h : w.Awaits moves) (before : Tree f) (time : Int) :
    ((moves.map before.renameOf).foldl (Walk.apply time) w).history.records =
      w.history.records.map (.followed moves) := by
  induction moves generalizing w with
  | nil => exact (List.map_id _).symm
  | cons m rest ih =>
    have hlater : m.2 ∉ rest.map Prod.fst := by
      intro hmem
      obtain ⟨m', hm', heq⟩ := List.mem_map.1 hmem
      exact h.old_ne_new (List.mem_cons_of_mem _ hm') List.mem_cons_self heq
    rw [List.map_cons, List.foldl_cons, ih (h.apply before time), h.records_apply before time, List.map_map]
    exact List.map_congr_left fun r _ => ChurnRecord.followed_cons h.nodup_old hlater r

end Awaits

/-! ## The commit as a whole -/

variable {r : Revision f} {moves : List (String × String)} {c : Commit}

/-- Changes that are the renames of files in some order are the renames of the files listed in this order. -/
theorem exists_eq_map_renameOf {changes : List FileChange} (h : changes.Perm (moves.map before.renameOf)) :
    ∃ listed : List (String × String), listed.Perm moves ∧ changes = listed.map before.renameOf := by
  have heach : List.Forall₂ (fun c m => c = before.renameOf m) (moves.map before.renameOf) moves :=
    List.forall₂_map_left_iff.2 (List.forall₂_same.2 fun _ _ => rfl)
  obtain ⟨listed, hlisted, hperm⟩ := List.perm_comp_forall₂ h heach
  refine ⟨listed, hperm, ?_⟩
  rwa [← List.forall₂_eq_eq_eq, List.forall₂_map_right_iff]

/-- In a walk that tracks a tree and has all of its files open, a commit that only moves files lets every record follow
its file. -/
theorem Tracks.records_feed_of_moves (h : w.Tracks before) (hcovers : ∀ path ∈ before.tracked, w.isOpen path = true)
    (hmoves : r.Moves before moves) (hrenames : c.changes.Perm (moves.map before.renameOf)) :
    (w.feed c).history.records = w.history.records.map (.followed moves) := by
  obtain ⟨listed, hlisted, hchanges⟩ := exists_eq_map_renameOf hrenames
  have htracked : ∀ m ∈ listed, m.1 ∈ before.tracked := fun m hm => hmoves.tracked m (hlisted.subset hm)
  have hawaits : w.Awaits listed :=
    { sound := h.sound
      accounted := h.accounted
      isOpen_old := fun m hm => hcovers m.1 (htracked m hm)
      isOpen_new := fun m hm =>
        Bool.eq_false_iff.2 fun hopen => hmoves.untracked m (hlisted.subset hm) (h.mem_tracked m.2 hopen)
      ne_empty := fun m hm => Tree.ne_empty_of_mem_tracked (htracked m hm)
      nodup_old := (hlisted.map _).nodup_iff.2 hmoves.nodup_old
      nodup_new := (hlisted.map _).nodup_iff.2 hmoves.nodup_new }
  have hrecords := hawaits.records_foldl_apply before c.timestamp
  rw [← hchanges] at hrecords
  refine hrecords.trans (List.map_congr_left fun a _ => ?_)
  exact ChurnRecord.followed_eq_of_perm hlisted hmoves.nodup_old a

/-- In such a walk the only live record at the old path of a file is the only one at the new path after the move. -/
theorem Tracks.liveAt_feed_of_moves (h : w.Tracks before) (hcovers : ∀ path ∈ before.tracked, w.isOpen path = true)
    (hfollows : r.Follows before) (hmoves : r.Moves before moves)
    (hchanges : Renames.Reconciled (r.changes before) c.changes)
    (hrenames : c.changes.Perm (moves.map before.renameOf)) (hm : m ∈ moves) :
    ∃ a, w.history.liveAt m.1 = [a] ∧ (w.feed c).history.liveAt m.2 = [a.moveTo m.2] := by
  obtain ⟨place, hat⟩ := Option.isSome_iff_exists.1 (hcovers m.1 (hmoves.tracked m hm))
  obtain ⟨a, ha, honly⟩ := h.accounted.liveAt_eq h.sound hat
  have hstands : a.standsAt m.1 = true := ChurnHistory.standsAt_of_liveAt_eq honly
  have hafter := h.feed hfollows hchanges
  have hnow : m.2 ∈ r.tree.tracked := by
    rw [Tree.mem_tracked, hmoves.blobOf_eq m hm]
    exact Tree.mem_tracked.1 (hmoves.tracked m hm)
  obtain ⟨place', hat'⟩ := Option.isSome_iff_exists.1 (isOpen_feed_of_mem_tracked hfollows hchanges hcovers m.2 hnow)
  obtain ⟨b, -, honly'⟩ := hafter.accounted.liveAt_eq hafter.sound hat'
  have hmoved : a.moveTo m.2 ∈ (w.feed c).history.liveAt m.2 := by
    refine List.mem_filter.2 ⟨?_, ChurnRecord.standsAt_moveTo hstands m.2⟩
    rw [h.records_feed_of_moves hcovers hmoves hrenames, List.mem_map]
    exact ⟨a, List.mem_of_getElem? ha, ChurnRecord.followed_eq_moveTo hmoves.nodup_old hm hstands⟩
  rw [honly', List.mem_singleton] at hmoved
  exact ⟨a, honly, hmoved ▸ honly'⟩

/-- Moving files keeps their churn. After a history that begins with the empty tree, a commit that only moves files to
untracked paths, where the files are different blobs and none of them is empty, lets the live record of every file
follow it. This record is the only live one at the old path before and at the new path afterwards, and has the old path
appended to its previous paths; nothing else of it changes. All other records are unchanged, and none is opened or
closed. -/
theorem moved_files_keep_churn {σ : Type} [HasSession σ] {load : String → Run σ Bytes}
    (hload : ∀ id, (load id).IsTotal) (l : Renames.Limits) {revisions : List (Revision f)}
    (hhistory : Revision.IsHistory .empty revisions) (hfollows : r.Follows (Revision.lastTree .empty revisions))
    (hmoves : r.Moves (Revision.lastTree .empty revisions) moves) (s : σ) :
    ∃ commits s₁ c s₂, (Revision.commits load l .empty revisions).Returns s commits s₁ ∧
      (r.commit load l (Revision.lastTree .empty revisions)).Returns s₁ c s₂ ∧
      let w := commits.foldl Walk.feed {}
      (w.feed c).history.records = w.history.records.map (.followed moves) ∧
        ∀ m ∈ moves, ∃ a, w.history.liveAt m.1 = [a] ∧ (w.feed c).history.liveAt m.2 =
          [{ a with identity := { a.identity with
              path := m.2
              previousPaths := a.identity.previousPaths ++ [m.1] } }] := by
  obtain ⟨commits, s₁, hcommits, hreplayed⟩ := Revision.returns_commits hload l hhistory s
  obtain ⟨changes, s₂, s₃, hreconcile, hcommit⟩ := hfollows.returns_commit hload l s₁
  obtain ⟨htracks, hcovers⟩ := Tracks.foldl_feed hreplayed (tracks_empty .empty)
  have hall := hcovers fun path hpath => by cases hpath
  have hrenames := hmoves.renames_perm hfollows hreconcile
  refine ⟨commits, s₁, _, s₃, hcommits, hcommit, htracks.records_feed_of_moves hall hmoves hrenames, fun m hm => ?_⟩
  obtain ⟨a, hbefore, hafter⟩ := htracks.liveAt_feed_of_moves (c := ⟨r.sha, r.timestamp, r.parents, changes⟩) hall
    hfollows hmoves (Renames.reconciled_of_returns hreconcile) hrenames hm
  have hpath : a.identity.path = m.1 := ChurnRecord.path_of_standsAt (ChurnHistory.standsAt_of_liveAt_eq hbefore)
  refine ⟨a, hbefore, hafter.trans ?_⟩
  rw [ChurnRecord.moveTo, hpath]

/-- Two files are moved at once, so that the first old path belongs to the last new one, and a third file stays. -/
theorem moved_files_keep_churn_crossing :
    let file := TreeNode.file false (.repeated .sha1 'a' (by decide) (by decide))
    let other := TreeNode.file false (.repeated .sha1 'b' (by decide) (by decide))
    let kept := TreeNode.file true (.repeated .sha1 'c' (by decide) (by decide))
    let first : Tree .sha1 := ⟨[("a", file), ("c", other), ("k", kept)], by decide, by decide⟩
    let second : Tree .sha1 := ⟨[("b", other), ("d", file), ("k", kept)], by decide, by decide⟩
    let revisions : List (Revision .sha1) := [⟨"1", [], 10, first, Revision.differing .empty first⟩]
    let next : Revision .sha1 := ⟨"2", ["1"], 20, second, Revision.differing first second⟩
    let moves := [("a", "d"), ("c", "b")]
    let load : String → Run Session Bytes := fun _ => pure []
    (∀ id, (load id).IsTotal) ∧ Revision.IsHistory .empty revisions ∧ next.Follows first ∧ next.Moves first moves ∧
      ∃ commits s₁ c s₂, (Revision.commits load {} .empty revisions).Returns {} commits s₁ ∧
        (next.commit load {} first).Returns s₁ c s₂ ∧
        let w := commits.foldl Walk.feed {}
        (w.feed c).history.records = w.history.records.map (.followed moves) ∧
          ∀ m ∈ moves, ∃ a, w.history.liveAt m.1 = [a] ∧ (w.feed c).history.liveAt m.2 =
            [{ a with identity := { a.identity with
                path := m.2
                previousPaths := a.identity.previousPaths ++ [m.1] } }] := by
  intro file other kept first second revisions next moves load
  have hload : ∀ id, (load id).IsTotal := fun _ => Run.isTotal_pure []
  have hhistory : Revision.IsHistory .empty revisions := ⟨Revision.follows_of_listed_eq rfl, trivial⟩
  have hfollows : next.Follows first := Revision.follows_of_listed_eq rfl
  have hmoves : next.Moves first moves :=
    { tracked := by decide
      untracked := by decide
      gone := by decide
      blobOf_eq := by decide
      kept := by
        intro path hold hnew
        simp only [moves, List.map_cons, List.map_nil, List.mem_cons, List.not_mem_nil, or_false, not_or] at hold hnew
        simp [next, first, second, Tree.node?, Record.get?, Ne.symm hold.1, Ne.symm hold.2, Ne.symm hnew.1,
          Ne.symm hnew.2]
      nodup_new := by decide
      nodup_blob := by decide
      not_empty := by decide }
  exact ⟨hload, hhistory, hfollows, hmoves, moved_files_keep_churn hload {} hhistory hfollows hmoves {}⟩

end Walk

end Hotspots
