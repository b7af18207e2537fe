import Hotspots.Proofs.History.EqualBlobs
import Hotspots.Proofs.History.StableMatching

/-!
# Renames do not depend on the order of the changes

A commit may list its changes in any order. The pairs of equal blobs are taken in the order of their paths, and the
stable matching of similar contents is determined by the sides as sets, so that sides with the same changes
(`Sides.Alike`) are still alike when pairs were taken from them. The result is sorted by paths that are all different
(`Sides.Alike.changes_eq`), and is the same list for every order of the changes (`renames_of_any_order`).
-/

namespace Hotspots.Renames

/-- Changes of different paths are listed by their paths in one way. -/
theorem byPath_eq_of_perm {as bs : List FileChange} (hpaths : (as.map FileChange.path).Nodup) (h : bs.Perm as) :
    byPath bs = byPath as :=
  eq_mergeSort_of_perm hpaths ((byPath_perm bs).trans h) (pairwise_byPath bs)

namespace Sides

/-- Sides that have the same changes, in any order. -/
structure Alike (s s' : Sides) : Prop where
  added : s.added.Perm s'.added
  deleted : s.deleted.Perm s'.deleted
  settled : s.settled.Perm s'.settled

variable {s s' : Sides}

/-- The sides of a list of changes are alike for every order of the list. -/
theorem alike_ofChanges {changes other : List FileChange} (h : other.Perm changes) :
    (ofChanges other).Alike (ofChanges changes) := ⟨h.filter _, h.filter _, h.filter _⟩

/-- Alike sides have the same changes altogether. -/
theorem Alike.all_perm (h : s.Alike s') : s.all.Perm s'.all := (h.settled.append h.added).append h.deleted

/-- Alike sides have too many pairs to compare or both have few enough. -/
theorem Alike.excludes_eq (h : s.Alike s') (l : Limits) : l.excludes s = l.excludes s' := by
  rw [Limits.excludes, Limits.excludes, h.deleted.length_eq, h.added.length_eq]

/-- Sides are still alike when the same pairs were taken from them, in whatever order. -/
theorem Alike.takeAll (h : s.Alike s') {pairs pairs' : List Pair} (hpairs : pairs.Perm pairs')
    (hoffers : s.Offers pairs) (hoffers' : s'.Offers pairs') : (s.takeAll pairs).Alike (s'.takeAll pairs') where
  added := by
    have hall := (hoffers.added_perm.symm.trans h.added).trans hoffers'.added_perm
    exact (List.perm_append_right_iff _).1 (hall.trans ((hpairs.map Pair.new).symm.append_left _))
  deleted := by
    have hall := (hoffers.deleted_perm.symm.trans h.deleted).trans hoffers'.deleted_perm
    exact (List.perm_append_right_iff _).1 (hall.trans ((hpairs.map Pair.old).symm.append_left _))
  settled := by
    rw [settled_takeAll, settled_takeAll]
    exact h.settled.append (hpairs.map Pair.change)

/-- Changes of different paths still have different paths when pairs were taken from them. -/
theorem Offers.nodup_paths {pairs : List Pair} (h : s.Offers pairs) (hpaths : (s.all.map FileChange.path).Nodup) :
    ((s.takeAll pairs).all.map FileChange.path).Nodup := by
  -- A rename stands at the path of its addition, and the path of its deletion is given up.
  have hadded : (((s.takeAll pairs).settled ++ (s.takeAll pairs).added).map FileChange.path).Perm
      ((s.settled ++ s.added).map FileChange.path) := by
    have hnew := h.added_perm.symm.map FileChange.path
    rw [List.map_append, List.map_map] at hnew
    simp only [settled_takeAll, List.append_assoc, List.map_append, List.map_map]
    exact (List.perm_append_comm.trans hnew).append_left _
  have hall := hadded.append_right ((s.takeAll pairs).deleted.map FileChange.path)
  rw [← List.map_append, ← List.map_append] at hall
  refine hall.nodup_iff.2 (hpaths.sublist (List.Sublist.map _ ?_))
  exact (List.Sublist.refl _).append (s.deleted_takeAll_sublist pairs)

/-- Sides with different paths list their changes by path. -/
theorem changes_eq_byPath (hpaths : (s.all.map FileChange.path).Nodup) : s.changes = byPath s.all := by
  refine eq_mergeSort_of_perm hpaths s.changes_perm_all (s.pairwise_changes.imp fun h => ?_)
  rcases h with hlt | ⟨heq, -⟩
  · exact le_of_lt hlt
  · exact le_of_eq heq

/-- Alike sides with different paths list the same changes in the same order. -/
theorem Alike.changes_eq (h : s.Alike s') (hpaths : (s'.all.map FileChange.path).Nodup) : s.changes = s'.changes := by
  have hpaths' : (s.all.map FileChange.path).Nodup := (h.all_perm.map _).nodup_iff.2 hpaths
  rw [changes_eq_byPath hpaths', changes_eq_byPath hpaths, byPath_eq_of_perm hpaths h.all_perm]

end Sides

/-! ## The pairs of both phases -/

variable {s s' : Sides} (h : s.Alike s')

include h

/-- The pairs that may be made are the same for alike sides. -/
theorem isEligible_iff_of_alike (content : String → Bytes) (threshold : Number) (p : Pair) :
    IsEligible content threshold s p ↔ IsEligible content threshold s' p := by
  constructor
  · exact fun hp => ⟨h.deleted.mem_iff.1 hp.old_mem, h.added.mem_iff.1 hp.new_mem, hp.old_ne_nil, hp.new_ne_nil,
      hp.similarity_eq, hp.threshold_le⟩
  · exact fun hp => ⟨h.deleted.mem_iff.2 hp.old_mem, h.added.mem_iff.2 hp.new_mem, hp.old_ne_nil, hp.new_ne_nil,
      hp.similarity_eq, hp.threshold_le⟩

/-- A stable matching of sides is one of alike sides. -/
theorem isStableMatching_of_alike {content : String → Bytes} {threshold : Number} {chosen : List Pair}
    (hchosen : IsStableMatching content threshold s chosen) : IsStableMatching content threshold s' chosen where
  isEligible p hp := (isEligible_iff_of_alike h content threshold p).1 (hchosen.isEligible p hp)
  nodup_old := hchosen.nodup_old
  nodup_new := hchosen.nodup_new
  blocked q hq hskipped := hchosen.blocked q ((isEligible_iff_of_alike h content threshold q).2 hq) hskipped

variable (hadded : (s'.added.map FileChange.path).Nodup) (hdeleted : (s'.deleted.map FileChange.path).Nodup)

include hadded hdeleted

/-- Alike sides with different paths have the same pairs of equal blobs. -/
theorem exactPairs_eq_of_alike : exactPairs s = exactPairs s' := by
  rw [exactPairs, exactPairs, byPath_eq_of_perm hadded h.added, byPath_eq_of_perm hdeleted h.deleted]

/-- Alike sides with different paths have the same pairs of similar contents. -/
theorem contentPairs_perm_of_alike (content : String → Bytes) (l : Limits) :
    (contentPairs content l s).Perm (contentPairs content l s') := by
  have hadded' := (h.added.map FileChange.path).nodup_iff.2 hadded
  have hdeleted' := (h.deleted.map FileChange.path).nodup_iff.2 hdeleted
  unfold contentPairs
  rw [h.excludes_eq]
  split
  · exact List.Perm.refl _
  · refine (isStableMatching_similarPairs hdeleted hadded).perm (isStableMatching_of_alike h ?_)
    exact isStableMatching_similarPairs hdeleted' hadded'

omit h hadded hdeleted

/-- The sides offer the pairs of similar contents that are taken. -/
theorem offers_contentPairs (content : String → Bytes) (l : Limits) (s : Sides) :
    s.Offers (contentPairs content l s) := by
  unfold contentPairs
  split
  · exact ⟨List.nil_subperm, List.nil_subperm⟩
  · exact offers_similarPairs _ _ _ _

/-- For given contents the changes of a commit are paired in one way, however they are listed. -/
theorem paired_eq_of_perm (content : String → Bytes) (l : Limits) {changes other : List FileChange}
    (hpaths : (changes.map FileChange.path).Nodup) (h : other.Perm changes) :
    paired content l other = paired content l changes := by
  have hside : ∀ side : FileChange → Bool, ((changes.filter side).map FileChange.path).Nodup := fun side =>
    hpaths.sublist (List.filter_sublist.map _)
  have hlisted := Sides.alike_ofChanges h
  have hall : ((Sides.ofChanges changes).all.map FileChange.path).Nodup :=
    ((Sides.all_ofChanges_perm changes).map _).nodup_iff.2 hpaths
  have hexact : (leftOf other).Alike (leftOf changes) :=
    hlisted.takeAll (.of_eq (exactPairs_eq_of_alike hlisted (hside isAddition) (hside isDeletion)))
      (offers_exactPairs _) (offers_exactPairs _)
  have hcontent := contentPairs_perm_of_alike hexact
    ((hside isAddition).sublist ((Sides.added_takeAll_sublist _ _).map _))
    ((hside isDeletion).sublist ((Sides.deleted_takeAll_sublist _ _).map _)) content l
  have hleft : ((leftOf changes).all.map FileChange.path).Nodup := (offers_exactPairs _).nodup_paths hall
  rw [paired_eq_takeAll, paired_eq_takeAll]
  exact (hexact.takeAll hcontent (offers_contentPairs _ _ _) (offers_contentPairs _ _ _)).changes_eq
    ((offers_contentPairs _ _ _).nodup_paths hleft)

section Reconcile

variable {σ : Type} [HasSession σ] {load : String → Run σ Bytes} {content : String → Bytes}

/-- The order in which changes of different paths are listed makes no difference. If the contents of all blobs can be
loaded, there is one result for every order of the changes, whatever the limits are. -/
theorem renames_of_any_order (l : Limits) {changes other : List FileChange}
    (hpaths : (changes.map FileChange.path).Nodup) (hperm : other.Perm changes)
    (hload : ∀ c ∈ changes, ∀ id, c.oldBlob = some id ∨ c.newBlob = some id →
      ∀ t, ∃ t', (load id).Returns t (content id) t') :
    ∃ result, (∀ t, ∃ t', (reconcile load l changes).Returns t result t') ∧
      ∀ t, ∃ t', (reconcile load l other).Returns t result t' := by
  have hgives : Run.Gives True (fun _ : σ => True) (reconcile load l changes) (paired content l changes) :=
    gives_reconcile (fun _ _ _ => trivial) l fun c hc id hid => Run.gives_of_returns (hload c hc id hid)
  have hgives' : Run.Gives True (fun _ : σ => True) (reconcile load l other) (paired content l other) :=
    gives_reconcile (fun _ _ _ => trivial) l fun c hc id hid =>
      Run.gives_of_returns (hload c (hperm.mem_iff.1 hc) id hid)
  rw [paired_eq_of_perm content l hpaths hperm] at hgives'
  exact ⟨paired content l changes, fun t => hgives.returns trivial t trivial,
    fun t => hgives'.returns trivial t trivial⟩

/-- Two additions are equally similar to one deletion, and a third file moved with its blob. The order of the changes
does not decide which addition is taken. -/
theorem renames_of_any_order_tied :
    let listed := [⟨.deleted, "old", none, some "x\ny\n", none, .zero⟩,
      ⟨.added, "b", none, none, some "x\ny\nz\n", .zero⟩, ⟨.added, "a", none, none, some "x\ny\nw\n", .zero⟩,
      ⟨.deleted, "c", none, some "1", none, .zero⟩, ⟨.added, "d", none, none, some "1", .zero⟩]
    (listed.map FileChange.path).Nodup ∧ listed.reverse.Perm listed ∧
      (∀ (id : String) (t : Session), ∃ t', Run.Returns (pure id.toUTF8.toList) t id.toUTF8.toList t') ∧
      ∃ result, (∀ t : Session, ∃ t', (reconcile (fun id => pure id.toUTF8.toList) {} listed).Returns t result t') ∧
        ∀ t : Session, ∃ t', (reconcile (fun id => pure id.toUTF8.toList) {} listed.reverse).Returns t result t' := by
  intro listed
  have hpaths : (listed.map FileChange.path).Nodup := by decide
  have hload : ∀ (id : String) (t : Session), ∃ t', Run.Returns (pure id.toUTF8.toList) t id.toUTF8.toList t' :=
    fun _ t => ⟨t, Run.returns_pure.2 ⟨rfl, rfl⟩⟩
  exact ⟨hpaths, listed.reverse_perm, hload,
    renames_of_any_order {} hpaths listed.reverse_perm fun _ _ id _ => hload id⟩

end Reconcile

end Hotspots.Renames
