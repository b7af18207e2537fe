import Hotspots.Proofs.History.EqualBlobs
import Hotspots.Proofs.History.FilledPaths

/-!
# Revisions that only move files

A revision that moves files lists a deletion and an addition of a blob for each of them. If the blobs are different and
not empty, then the first phase of rename detection pairs each deletion with the addition of its file, however old and
new paths interleave (`mem_exactPairs_iff`). Nothing is left for the second phase, and the changes of the commit are the
renames of the files (`Moves.renames_perm`).
-/

namespace Hotspots

open TreeNode (blobOf)
open Renames (Pair Sides)

variable {f : ObjectFormat}

/-- The deletion of the file that was at the old path of a move. -/
def Tree.deletionOf (before : Tree f) (m : String × String) : FileChange :=
  { kind := .deleted, path := m.1, oldBlob := blobOf (before.node? m.1) }

/-- The addition of this file at the new path. -/
def Tree.additionOf (before : Tree f) (m : String × String) : FileChange :=
  { kind := .added, path := m.2, newBlob := blobOf (before.node? m.1) }

/-- The pair that makes a move of them. -/
def Tree.pairOf (before : Tree f) (m : String × String) : Pair :=
  Renames.equalPair (before.deletionOf m) (before.additionOf m)

/-- The rename of a file that is moved unchanged. -/
def Tree.renameOf (before : Tree f) (m : String × String) : FileChange := (before.pairOf m).change

namespace Revision

/-- A revision does nothing but move files from old paths to new ones. The moved files are different blobs, none of them
empty, and go to different paths that were not tracked. -/
structure Moves (before : Tree f) (r : Revision f) (moves : List (String × String)) : Prop where
  tracked : ∀ m ∈ moves, m.1 ∈ before.tracked
  untracked : ∀ m ∈ moves, m.2 ∉ before.tracked
  gone : ∀ m ∈ moves, m.1 ∉ r.tree.tracked
  blobOf_eq : ∀ m ∈ moves, blobOf (r.tree.node? m.2) = blobOf (before.node? m.1)
  kept : ∀ path, path ∉ moves.map Prod.fst → path ∉ moves.map Prod.snd → r.tree.node? path = before.node? path
  nodup_new : (moves.map Prod.snd).Nodup
  nodup_blob : (moves.map fun m => blobOf (before.node? m.1)).Nodup
  not_empty : ∀ m ∈ moves, ∀ blob ∈ blobOf (before.node? m.1), blob ∉ Renames.emptyBlobs

/-- The changes of a revision are at different paths. -/
theorem Follows.nodup_paths {before : Tree f} {r : Revision f} (h : r.Follows before) :
    ((r.changes before).map FileChange.path).Nodup := by
  have hlisted : (r.changes before).map FileChange.path =
      ((r.differences before).filter fun d => d.change?.isSome).map Difference.path := by
    rw [List.map_eq_flatMap]
    refine Difference.flatMap_change? (fun d => ?_) _
    unfold Difference.change?
    cases blobOf d.old <;> cases blobOf d.new <;> rfl
  rw [hlisted, map_path_filter_differences]
  exact h.nodup.filter _

/-- If only one change of a revision passes a test, it is the list of those that do. -/
theorem Follows.byPath_filter {before : Tree f} {r : Revision f} (h : r.Follows before) {c : FileChange}
    (hc : c ∈ r.changes before) {keep : FileChange → Bool} (hkeep : keep c = true)
    (honly : ∀ d ∈ r.changes before, keep d = true → d = c) :
    Renames.byPath ((r.changes before).filter keep) = [c] := by
  have hnodup : ((r.changes before).filter keep).Nodup := (List.Nodup.of_map _ h.nodup_paths).filter _
  have hperm : ((r.changes before).filter keep).Perm [c] := by
    refine (List.perm_ext_iff_of_nodup hnodup (List.nodup_singleton c)).2 fun d => ?_
    rw [List.mem_filter, List.mem_singleton]
    constructor
    · exact fun hd => honly d hd.1 hd.2
    · rintro rfl
      exact ⟨hc, hkeep⟩
  exact List.perm_singleton.1 ((Renames.byPath_perm _).trans hperm)

namespace Moves

variable {before : Tree f} {r : Revision f} {moves : List (String × String)} {m : String × String}

/-- A file that is moved has a blob. -/
theorem exists_blob (h : r.Moves before moves) (hm : m ∈ moves) : ∃ blob, blobOf (before.node? m.1) = some blob :=
  Option.isSome_iff_exists.1 (Tree.mem_tracked.1 (h.tracked m hm))

/-- The blob of a file that is moved is named. -/
theorem isNamed_blobOf (h : r.Moves before moves) (hm : m ∈ moves) :
    Renames.isNamed (blobOf (before.node? m.1)) = true := by
  obtain ⟨blob, hblob⟩ := h.exists_blob hm
  obtain ⟨id, -, rfl⟩ := Option.map_eq_some_iff.1 hblob
  have hlength := id.length_eq
  rw [hblob, Renames.isNamed, Option.any_some, Bool.not_eq_true', ← Bool.not_eq_true, String.isEmpty_iff]
  intro hempty
  rw [hempty] at hlength
  cases f <;> cases hlength

/-- A path that is not tracked has no blob. -/
theorem blobOf_eq_none {t : Tree f} {path : String} (h : path ∉ t.tracked) : blobOf (t.node? path) = none := by
  rwa [Tree.mem_tracked, Bool.not_eq_true, Option.isSome_eq_false_iff, Option.isNone_iff_eq_none] at h

/-- The files are moved from different paths. -/
theorem nodup_old (h : r.Moves before moves) : (moves.map Prod.fst).Nodup :=
  List.Nodup.of_map (fun path => blobOf (before.node? path)) (by rw [List.map_map]; exact h.nodup_blob)

/-- The difference at an old path is the deletion of its file. -/
theorem change?_old (h : r.Moves before moves) (hm : m ∈ moves) :
    Difference.change? ⟨m.1, before.node? m.1, r.tree.node? m.1⟩ = some (before.deletionOf m) := by
  obtain ⟨blob, hblob⟩ := h.exists_blob hm
  rw [Difference.change?, Tree.deletionOf]
  simp only [hblob, blobOf_eq_none (h.gone m hm)]

/-- The difference at a new path is the addition of its file. -/
theorem change?_new (h : r.Moves before moves) (hm : m ∈ moves) :
    Difference.change? ⟨m.2, before.node? m.2, r.tree.node? m.2⟩ = some (before.additionOf m) := by
  obtain ⟨blob, hblob⟩ := h.exists_blob hm
  rw [Difference.change?, Tree.additionOf]
  simp only [h.blobOf_eq m hm, hblob, blobOf_eq_none (h.untracked m hm)]

/-- A revision that only moves files lists their deletions and their additions. -/
theorem mem_changes_iff (h : r.Moves before moves) (hfollows : r.Follows before) {c : FileChange} :
    c ∈ r.changes before ↔ ∃ m ∈ moves, c = before.deletionOf m ∨ c = before.additionOf m := by
  have hlisted : c ∈ r.changes before ↔
      ∃ path ∈ r.listed, Difference.change? ⟨path, before.node? path, r.tree.node? path⟩ = some c := by
    rw [changes, differences, List.filterMap_map, List.mem_filterMap]
    rfl
  have hdiffers : ∀ path, blobOf (before.node? path) ≠ blobOf (r.tree.node? path) → path ∈ r.listed := fun path hne =>
    (hfollows.mem_listed path).2 fun heq => hne (congrArg blobOf heq)
  rw [hlisted]
  constructor
  · rintro ⟨path, hpath, hchange⟩
    by_cases hold : path ∈ moves.map Prod.fst
    · obtain ⟨m, hm, rfl⟩ := List.mem_map.1 hold
      exact ⟨m, hm, .inl (Option.some.inj (hchange.symm.trans (h.change?_old hm)))⟩
    · by_cases hnew : path ∈ moves.map Prod.snd
      · obtain ⟨m, hm, rfl⟩ := List.mem_map.1 hnew
        exact ⟨m, hm, .inr (Option.some.inj (hchange.symm.trans (h.change?_new hm)))⟩
      · exact absurd (h.kept path hold hnew).symm ((hfollows.mem_listed path).1 hpath)
  · rintro ⟨m, hm, hc⟩
    obtain ⟨blob, hblob⟩ := h.exists_blob hm
    rcases hc with rfl | rfl
    · refine ⟨m.1, hdiffers m.1 ?_, h.change?_old hm⟩
      rw [blobOf_eq_none (h.gone m hm), hblob]
      exact Option.some_ne_none blob
    · refine ⟨m.2, hdiffers m.2 ?_, h.change?_new hm⟩
      rw [blobOf_eq_none (h.untracked m hm), h.blobOf_eq m hm, hblob]
      exact (Option.some_ne_none blob).symm

/-! ## The pairs -/

/-- Files with one blob are the same. -/
theorem eq_of_blobOf_eq (h : r.Moves before moves) {m' : String × String} (hm : m ∈ moves) (hm' : m' ∈ moves)
    (heq : blobOf (before.node? m.1) = blobOf (before.node? m'.1)) : m = m' :=
  List.inj_on_of_nodup_map h.nodup_blob hm hm' heq

/-- What is listed for an old path deletes a blob. -/
theorem isDeletion_deletionOf (h : r.Moves before moves) (hm : m ∈ moves) :
    Renames.isDeletion (before.deletionOf m) = true := h.isNamed_blobOf hm

/-- What is listed for a new path adds a blob. -/
theorem isAddition_additionOf (h : r.Moves before moves) (hm : m ∈ moves) :
    Renames.isAddition (before.additionOf m) = true := h.isNamed_blobOf hm

/-- The only change that deletes the blob of a moved file is its deletion. -/
theorem byPath_deletes (h : r.Moves before moves) (hfollows : r.Follows before) (hm : m ∈ moves) {blob : String}
    (hblob : blobOf (before.node? m.1) = some blob) :
    Renames.byPath ((r.changes before).filter (Renames.deletes blob)) = [before.deletionOf m] := by
  refine hfollows.byPath_filter ((h.mem_changes_iff hfollows).2 ⟨m, hm, .inl rfl⟩) ?_ fun d hd hdeletes => ?_
  · rw [Renames.deletes, h.isDeletion_deletionOf hm, Tree.deletionOf, hblob, beq_self_eq_true, Bool.and_self]
  · obtain ⟨m', hm', rfl | rfl⟩ := (h.mem_changes_iff hfollows).1 hd
    · have hsame : blobOf (before.node? m'.1) = some blob := by
        simpa [Tree.deletionOf] using ((Bool.and_eq_true _ _).mp hdeletes).2
      rw [h.eq_of_blobOf_eq hm' hm (hsame.trans hblob.symm)]
    · cases hdeletes

/-- The only change that adds the blob of a moved file is its addition. -/
theorem byPath_adds (h : r.Moves before moves) (hfollows : r.Follows before) (hm : m ∈ moves) {blob : String}
    (hblob : blobOf (before.node? m.1) = some blob) :
    Renames.byPath ((r.changes before).filter (Renames.adds blob)) = [before.additionOf m] := by
  refine hfollows.byPath_filter ((h.mem_changes_iff hfollows).2 ⟨m, hm, .inr rfl⟩) ?_ fun d hd hadds => ?_
  · rw [Renames.adds, h.isAddition_additionOf hm, Tree.additionOf, hblob, beq_self_eq_true, Bool.and_self]
  · obtain ⟨m', hm', rfl | rfl⟩ := (h.mem_changes_iff hfollows).1 hd
    · cases hadds
    · have hsame : blobOf (before.node? m'.1) = some blob := by
        simpa [Tree.additionOf] using ((Bool.and_eq_true _ _).mp hadds).2
      rw [h.eq_of_blobOf_eq hm' hm (hsame.trans hblob.symm)]

/-- The pairs of equal blobs are those of the moved files. -/
theorem mem_exactPairs_iff (h : r.Moves before moves) (hfollows : r.Follows before) {p : Pair} :
    p ∈ Renames.exactPairs (Sides.ofChanges (r.changes before)) ↔ ∃ m ∈ moves, p = before.pairOf m := by
  constructor
  · intro hp
    have hoffers := Renames.offers_exactPairs (Sides.ofChanges (r.changes before))
    obtain ⟨hold, hdeletion⟩ := List.mem_filter.1 (hoffers.old.subset (List.mem_map_of_mem hp))
    obtain ⟨hnew, haddition⟩ := List.mem_filter.1 (hoffers.new.subset (List.mem_map_of_mem hp))
    obtain ⟨hequal, hsame, -⟩ := Renames.blobs_of_mem_exactFrom hp
    obtain ⟨m, hm, hdeleted⟩ := (h.mem_changes_iff hfollows).1 hold
    obtain ⟨m', hm', hadded⟩ := (h.mem_changes_iff hfollows).1 hnew
    replace hdeleted : p.old = before.deletionOf m := hdeleted.resolve_right fun heq => by
      rw [heq] at hdeletion
      cases hdeletion
    replace hadded : p.new = before.additionOf m' := hadded.resolve_left fun heq => by
      rw [heq] at haddition
      cases haddition
    rw [hdeleted, hadded] at hsame
    rw [h.eq_of_blobOf_eq hm' hm hsame] at hadded
    refine ⟨m, hm, ?_⟩
    rw [Tree.pairOf, Renames.equalPair, ← hdeleted, ← hadded, ← hequal]
  · rintro ⟨m, hm, rfl⟩
    obtain ⟨blob, hblob⟩ := h.exists_blob hm
    have hpairs := Renames.exactPairs_of_blob (h.not_empty m hm blob hblob) hfollows.nodup_paths
    rw [Renames.pairsOf, h.byPath_deletes hfollows hm hblob, h.byPath_adds hfollows hm hblob] at hpairs
    have hmem : before.pairOf m ∈ (Renames.exactPairs (Sides.ofChanges (r.changes before))).filter
        fun p => p.old.oldBlob == some blob := by
      rw [hpairs]
      exact List.mem_singleton_self _
    exact List.mem_of_mem_filter hmem

/-- The pairs of equal blobs are those of the moved files, one for each. -/
theorem exactPairs_perm (h : r.Moves before moves) (hfollows : r.Follows before) :
    (Renames.exactPairs (Sides.ofChanges (r.changes before))).Perm (moves.map before.pairOf) := by
  have hpairs : (Renames.exactPairs (Sides.ofChanges (r.changes before))).Nodup := by
    have hdeleted := (Renames.exactFrom_old (Renames.byPath (Sides.ofChanges (r.changes before)).added) []
      (Renames.byPath (Sides.ofChanges (r.changes before)).deleted)).nodup
    refine List.Nodup.of_map Pair.old (hdeleted ?_)
    exact (Renames.byPath_perm _).nodup_iff.2 ((List.Nodup.of_map _ hfollows.nodup_paths).filter _)
  have hmoves : (moves.map before.pairOf).Nodup :=
    List.Nodup.of_map (fun p => p.old.path) (by rw [List.map_map]; exact h.nodup_old)
  refine (List.perm_ext_iff_of_nodup hpairs hmoves).2 fun p => ?_
  rw [h.mem_exactPairs_iff hfollows, List.mem_map]
  simp only [eq_comm]

/-! ## The renames -/

/-- The pairs of equal blobs leave nothing to pair. -/
theorem leftOf_eq_nil (h : r.Moves before moves) (hfollows : r.Follows before) :
    (Renames.leftOf (r.changes before)).added = [] ∧ (Renames.leftOf (r.changes before)).deleted = [] := by
  have hpaired : ∀ m ∈ moves, before.pairOf m ∈ Renames.exactPairs (Sides.ofChanges (r.changes before)) := fun m hm =>
    (h.mem_exactPairs_iff hfollows).2 ⟨m, hm, rfl⟩
  obtain ⟨hold, hnew⟩ := Renames.not_mem_exactPairs_of_left hfollows.nodup_paths
  constructor
  · refine List.eq_nil_iff_forall_not_mem.2 fun c hc => ?_
    obtain ⟨hmem, haddition⟩ := List.mem_filter.1 ((Sides.added_takeAll_sublist _ _).subset hc)
    obtain ⟨m, hm, rfl | rfl⟩ := (h.mem_changes_iff hfollows).1 hmem
    · cases haddition
    · exact hnew _ hc (List.mem_map.2 ⟨_, hpaired m hm, rfl⟩)
  · refine List.eq_nil_iff_forall_not_mem.2 fun c hc => ?_
    obtain ⟨hmem, hdeletion⟩ := List.mem_filter.1 ((Sides.deleted_takeAll_sublist _ _).subset hc)
    obtain ⟨m, hm, rfl | rfl⟩ := (h.mem_changes_iff hfollows).1 hmem
    · exact hold _ hc (List.mem_map.2 ⟨_, hpaired m hm, rfl⟩)
    · cases hdeletion

/-- Nothing but deletions and additions of blobs is listed. -/
theorem settled_ofChanges_eq_nil (h : r.Moves before moves) (hfollows : r.Follows before) :
    (Sides.ofChanges (r.changes before)).settled = [] := by
  refine List.filter_eq_nil_iff.2 fun c hc => ?_
  obtain ⟨m, hm, rfl | rfl⟩ := (h.mem_changes_iff hfollows).1 hc
  · rw [h.isDeletion_deletionOf hm, Bool.not_true, Bool.and_false]
    exact Bool.false_ne_true
  · rw [h.isAddition_additionOf hm, Bool.not_true, Bool.false_and]
    exact Bool.false_ne_true

/-- The changes of a revision that moves files are their renames, whatever is loaded and whatever the limits are. -/
theorem renames_perm (h : r.Moves before moves) (hfollows : r.Follows before) {σ : Type} [HasSession σ]
    {load : String → Run σ Bytes} {l : Renames.Limits} {result : List FileChange} {t t' : σ}
    (hreturns : (Renames.reconcile load l (r.changes before)).Returns t result t') :
    result.Perm (moves.map before.renameOf) := by
  obtain ⟨pairs, hpairs, rfl⟩ := Renames.exists_offers_of_returns hreturns
  obtain ⟨hadded, hdeleted⟩ := h.leftOf_eq_nil hfollows
  obtain rfl : pairs = [] := by
    have hnone := hpairs.old
    rw [hdeleted, List.subperm_nil] at hnone
    exact List.map_eq_nil_iff.1 hnone
  have hsettled : (Renames.leftOf (r.changes before)).all =
      (Renames.exactPairs (Sides.ofChanges (r.changes before))).map Pair.change := by
    rw [Sides.all, hadded, hdeleted, List.append_nil, List.append_nil, Renames.leftOf, Sides.settled_takeAll,
      h.settled_ofChanges_eq_nil hfollows, List.nil_append]
  have hall : ((Renames.leftOf (r.changes before)).takeAll []).changes.Perm
      ((Renames.exactPairs (Sides.ofChanges (r.changes before))).map Pair.change) :=
    hsettled ▸ Sides.changes_perm_all _
  have hrenames := (h.exactPairs_perm hfollows).map Pair.change
  rw [List.map_map] at hrenames
  exact hall.trans hrenames

end Moves

end Revision

end Hotspots
