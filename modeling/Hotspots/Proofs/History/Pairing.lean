import Hotspots.History.Renames
import Hotspots.Proofs.Run.Returns
import Mathlib.Data.List.Nodup
import Mathlib.Data.List.Perm.Subperm
import Mathlib.Logic.Relation

/-!
# Pairs are taken one at a time

Both phases of rename detection choose pairs whose additions and whose deletions are all different, so that
the sides have all of their members to offer (`Sides.Offers`) and taking them is a sequence of single steps:
an addition and a deletion leave their sides and one rename joins the settled changes
(`reconciled_of_returns`), whichever way contents are loaded. Whatever a single
step conserves, the whole detection conserves (`Reconciled.flatMap_perm`).
-/

open scoped List

namespace Hotspots.Renames

namespace Sides

/-- All changes of the sides, unordered. -/
def all (s : Sides) : List FileChange := s.settled ++ s.added ++ s.deleted

/-- One pair is taken whose members are still there. -/
def Takes (s s' : Sides) : Prop := ∃ p : Pair, p.new ∈ s.added ∧ p.old ∈ s.deleted ∧ s' = s.take p

/-- The sides hold what their names say. -/
structure Sorted (s : Sides) : Prop where
  isAddition : ∀ c ∈ s.added, isAddition c = true
  isDeletion : ∀ c ∈ s.deleted, isDeletion c = true

/-- The sides of a list of changes hold what their names say. -/
theorem sorted_ofChanges (changes : List FileChange) : (ofChanges changes).Sorted :=
  ⟨fun _ hc => (List.mem_filter.1 hc).2, fun _ hc => (List.mem_filter.1 hc).2⟩

/-- Taking a pair leaves the sides holding what their names say. -/
theorem Takes.sorted {s s' : Sides} (h : s.Takes s') (hs : s.Sorted) : s'.Sorted := by
  obtain ⟨p, -, -, rfl⟩ := h
  exact ⟨fun c hc => hs.isAddition c (List.mem_of_mem_erase hc),
    fun c hc => hs.isDeletion c (List.mem_of_mem_erase hc)⟩

/-- No change is an addition and a deletion. -/
theorem isDeletion_of_isAddition {c : FileChange} (h : isAddition c = true) : isDeletion c = false := by
  simp_all [isAddition, isDeletion]

/-- No change is a deletion and an addition. -/
theorem isAddition_of_isDeletion {c : FileChange} (h : isDeletion c = true) : isAddition c = false :=
  Bool.eq_false_iff.2 fun hadd => by simpa [h] using isDeletion_of_isAddition hadd

/-- A deletion names the blob that it deletes. -/
theorem exists_blob_of_isDeletion {c : FileChange} (h : isDeletion c = true) : ∃ blob, c.oldBlob = some blob := by
  cases hblob : c.oldBlob with
  | none => simp [isDeletion, isNamed, hblob] at h
  | some blob => exact ⟨blob, rfl⟩

/-- An addition names the blob that it adds. -/
theorem exists_blob_of_isAddition {c : FileChange} (h : isAddition c = true) : ∃ blob, c.newBlob = some blob := by
  cases hblob : c.newBlob with
  | none => simp [isAddition, isNamed, hblob] at h
  | some blob => exact ⟨blob, rfl⟩

/-- Splitting changes into sides loses nothing. -/
theorem all_ofChanges_perm (changes : List FileChange) : (ofChanges changes).all.Perm changes := by
  induction changes with
  | nil => exact List.Perm.refl _
  | cons c rest ih =>
    unfold all ofChanges at ih ⊢
    dsimp only at ih ⊢
    by_cases ha : isAddition c = true
    · have hd := isDeletion_of_isAddition ha
      simp only [List.filter_cons, ha, hd, Bool.not_true, Bool.not_false, Bool.false_and,
        if_true, Bool.false_eq_true, if_false, List.append_assoc, List.cons_append] at ih ⊢
      exact List.perm_middle.trans (ih.cons c)
    · by_cases hd : isDeletion c = true
      · simp only [List.filter_cons, ha, hd, Bool.not_true, Bool.not_false, Bool.and_false,
          if_true, Bool.false_eq_true, if_false] at ih ⊢
        exact List.perm_middle.trans (ih.cons c)
      · simp only [List.filter_cons, ha, hd, Bool.not_false, Bool.and_self, if_true,
          Bool.false_eq_true, if_false, List.cons_append] at ih ⊢
        exact ih.cons c

/-- The listed changes of the sides are all of them. -/
theorem changes_perm_all (s : Sides) : s.changes.Perm s.all := List.mergeSort_perm _ _

/-! ## What a step conserves -/

/-- A quantity of changes that a rename has as much of as its two members together. -/
def Conserved {β : Type} (f : FileChange → List β) : Prop :=
  ∀ p : Pair, isAddition p.new = true → isDeletion p.old = true →
    (f p.change).Perm (f p.new ++ f p.old)

/-- Taking one pair conserves what renames conserve. -/
theorem Takes.flatMap_perm {β : Type} {f : FileChange → List β} (hf : Conserved f) {s s' : Sides}
    (h : s.Takes s') (hs : s.Sorted) : (s'.all.flatMap f).Perm (s.all.flatMap f) := by
  obtain ⟨p, hnew, hold, rfl⟩ := h
  have hadded := (List.perm_cons_erase hnew).flatMap_right f
  have hdeleted := (List.perm_cons_erase hold).flatMap_right f
  rw [List.flatMap_cons] at hadded hdeleted
  simp only [all, take, List.flatMap_append, List.flatMap_cons, List.flatMap_nil, List.append_nil,
    List.append_assoc]
  refine List.Perm.append_left _ ?_
  calc f p.change ++ ((s.added.erase p.new).flatMap f ++ (s.deleted.erase p.old).flatMap f)
      _ ~ (f p.new ++ f p.old) ++
          ((s.added.erase p.new).flatMap f ++ (s.deleted.erase p.old).flatMap f) :=
        (hf p (hs.isAddition _ hnew) (hs.isDeletion _ hold)).append_right _
      _ ~ (f p.new ++ (s.added.erase p.new).flatMap f) ++
          (f p.old ++ (s.deleted.erase p.old).flatMap f) := by
        simp only [List.append_assoc]
        refine List.Perm.append_left _ ?_
        simp only [← List.append_assoc]
        exact List.perm_append_comm.append_right _
      _ ~ s.added.flatMap f ++ s.deleted.flatMap f := hadded.symm.append hdeleted.symm

/-- Taking pairs one at a time conserves what renames conserve. -/
theorem flatMap_perm_of_takes {β : Type} {f : FileChange → List β} (hf : Conserved f) {s s' : Sides}
    (h : Relation.ReflTransGen Takes s s') (hs : s.Sorted) :
    (s'.all.flatMap f).Perm (s.all.flatMap f) := by
  have hboth : s'.Sorted ∧ (s'.all.flatMap f).Perm (s.all.flatMap f) := by
    induction h with
    | refl => exact ⟨hs, List.Perm.refl _⟩
    | tail _ hstep ih => exact ⟨hstep.sorted ih.1, (hstep.flatMap_perm hf ih.1).trans ih.2⟩
  exact hboth.2

/-- The sides have the members of all pairs to offer, an equal one for each of several equal members. -/
structure Offers (s : Sides) (pairs : List Pair) : Prop where
  new : (pairs.map Pair.new).Subperm s.added
  old : (pairs.map Pair.old).Subperm s.deleted

/-- When the first pair is taken, the others are still offered. -/
theorem Offers.of_cons {s : Sides} {p : Pair} {rest : List Pair} (h : s.Offers (p :: rest)) :
    p.new ∈ s.added ∧ p.old ∈ s.deleted ∧ (s.take p).Offers rest := by
  refine ⟨h.new.subset (by simp), h.old.subset (by simp), ?_, ?_⟩
  · have hrest := h.new.erase p.new
    rw [List.map_cons, List.erase_cons_head] at hrest
    exact hrest
  · have hrest := h.old.erase p.old
    rw [List.map_cons, List.erase_cons_head] at hrest
    exact hrest

/-- Pairs that are offered are taken one at a time. -/
theorem Offers.takes {pairs : List Pair} {s : Sides} (h : s.Offers pairs) :
    Relation.ReflTransGen Takes s (s.takeAll pairs) := by
  induction pairs generalizing s with
  | nil => exact .refl
  | cons p rest ih =>
    obtain ⟨hnew, hold, hrest⟩ := h.of_cons
    exact .head ⟨p, hnew, hold, rfl⟩ (ih hrest)

/-- The additions are those that are left and those of the pairs. -/
theorem Offers.added_perm {pairs : List Pair} {s : Sides} (h : s.Offers pairs) :
    s.added.Perm ((s.takeAll pairs).added ++ pairs.map Pair.new) := by
  induction pairs generalizing s with
  | nil => simp [takeAll]
  | cons p rest ih =>
    obtain ⟨hnew, -, hrest⟩ := h.of_cons
    exact (List.perm_cons_erase hnew).trans (((ih hrest).cons p.new).trans List.perm_middle.symm)

/-- The deletions are those that are left and those of the pairs. -/
theorem Offers.deleted_perm {pairs : List Pair} {s : Sides} (h : s.Offers pairs) :
    s.deleted.Perm ((s.takeAll pairs).deleted ++ pairs.map Pair.old) := by
  induction pairs generalizing s with
  | nil => simp [takeAll]
  | cons p rest ih =>
    obtain ⟨-, hold, hrest⟩ := h.of_cons
    exact (List.perm_cons_erase hold).trans (((ih hrest).cons p.old).trans List.perm_middle.symm)

/-- Pairs are taken after other pairs or together with them. -/
theorem takeAll_append (s : Sides) (pairs more : List Pair) :
    s.takeAll (pairs ++ more) = (s.takeAll pairs).takeAll more := List.foldl_append

/-- Pairs that are offered after others were taken are offered together with them. -/
theorem Offers.append {s : Sides} {pairs more : List Pair} (h : s.Offers pairs)
    (hmore : (s.takeAll pairs).Offers more) : s.Offers (pairs ++ more) := by
  refine ⟨?_, ?_⟩
  · rw [List.map_append]
    exact (List.perm_append_comm.subperm.trans
      ((List.subperm_append_right _).2 hmore.new)).trans h.added_perm.symm.subperm
  · rw [List.map_append]
    exact (List.perm_append_comm.subperm.trans
      ((List.subperm_append_right _).2 hmore.old)).trans h.deleted_perm.symm.subperm

/-! ## What is left -/

/-- Taking pairs leaves a part of the additions. -/
theorem added_takeAll_sublist (s : Sides) (pairs : List Pair) : (s.takeAll pairs).added.Sublist s.added := by
  induction pairs generalizing s with
  | nil => exact List.Sublist.refl _
  | cons p rest ih => exact (ih (s.take p)).trans List.erase_sublist

/-- Taking pairs leaves a part of the deletions. -/
theorem deleted_takeAll_sublist (s : Sides) (pairs : List Pair) :
    (s.takeAll pairs).deleted.Sublist s.deleted := by
  induction pairs generalizing s with
  | nil => exact List.Sublist.refl _
  | cons p rest ih => exact (ih (s.take p)).trans List.erase_sublist

/-- Taking pairs settles their renames. -/
theorem settled_takeAll (s : Sides) (pairs : List Pair) :
    (s.takeAll pairs).settled = s.settled ++ pairs.map Pair.change := by
  induction pairs generalizing s with
  | nil => simp [takeAll]
  | cons p rest ih =>
    refine (ih (s.take p)).trans ?_
    simp [take]

end Sides

/-! ## The pairs of both phases -/

/-- The partner of a deletion is an addition of its blob, which is not empty, at a path that is not taken. -/
theorem exactPartner?_some {added : List FileChange} {taken : List String} {old new : FileChange}
    (h : exactPartner? added taken old = some new) :
    new ∈ added ∧ new.newBlob = old.oldBlob ∧ (∀ blob ∈ new.newBlob, blob ∉ emptyBlobs) ∧ new.path ∉ taken := by
  have hfound := List.find?_some h
  simp only [Bool.and_eq_true, beq_iff_eq, Bool.not_eq_eq_eq_not, Bool.not_true] at hfound
  refine ⟨List.mem_of_find?_eq_some h, hfound.1.1, fun blob hblob => ?_, by simpa using hfound.2⟩
  have hempty := hfound.1.2
  rw [hblob] at hempty
  simpa using hempty

/-- Exact pairs have additions of the list, at different paths that were not taken. -/
theorem exactFrom_new (added : List FileChange) (taken : List String) (deleted : List FileChange) :
    (∀ p ∈ exactFrom added taken deleted, p.new ∈ added ∧ p.new.path ∉ taken) ∧
      ((exactFrom added taken deleted).map (·.new.path)).Nodup := by
  induction deleted generalizing taken with
  | nil => simp [exactFrom]
  | cons old rest ih =>
    unfold exactFrom
    split
    · next new hnew =>
      obtain ⟨hmem, hnodup⟩ := ih (new.path :: taken)
      obtain ⟨hadded, -, -, hfree⟩ := exactPartner?_some hnew
      refine ⟨?_, ?_⟩
      · intro p hp
        rcases List.mem_cons.1 hp with rfl | hrest
        · exact ⟨hadded, hfree⟩
        · exact ⟨(hmem p hrest).1, fun h => (hmem p hrest).2 (List.mem_cons_of_mem _ h)⟩
      · rw [List.map_cons, List.nodup_cons]
        refine ⟨?_, hnodup⟩
        intro hin
        obtain ⟨p, hp, heq⟩ := List.mem_map.1 hin
        exact (hmem p hp).2 (heq ▸ List.mem_cons_self)
    · exact ih taken

/-- Exact pairs have the deletions of the list in their order. -/
theorem exactFrom_old (added : List FileChange) (taken : List String) (deleted : List FileChange) :
    ((exactFrom added taken deleted).map Pair.old).Sublist deleted := by
  induction deleted generalizing taken with
  | nil => simp [exactFrom]
  | cons old rest ih =>
    unfold exactFrom
    split
    · exact (ih _).cons_cons old
    · exact (ih _).cons old

/-- A pair of equal blobs is a deletion and an addition of one blob, which is not empty, and has similarity 1. -/
theorem blobs_of_mem_exactFrom {added deleted : List FileChange} {taken : List String} {p : Pair}
    (h : p ∈ exactFrom added taken deleted) :
    p.similarity = .ofInt 1 ∧ p.new.newBlob = p.old.oldBlob ∧ ∀ blob ∈ p.old.oldBlob, blob ∉ emptyBlobs := by
  induction deleted generalizing taken with
  | nil => cases h
  | cons old rest ih =>
    unfold exactFrom at h
    split at h
    · next new hnew =>
      rcases List.mem_cons.1 h with rfl | h
      · obtain ⟨-, hsame, hempty, -⟩ := exactPartner?_some hnew
        exact ⟨by dsimp only, hsame, fun blob hblob => hempty blob (hsame.trans hblob)⟩
      · exact ih h
    · exact ih h

/-- Members of pairs are different if their paths are. -/
theorem nodup_members {pairs : List Pair} {member : Pair → FileChange}
    (h : (pairs.map fun p => (member p).path).Nodup) : (pairs.map member).Nodup :=
  List.Nodup.of_map FileChange.path (by rwa [List.map_map])

/-- The sides offer the exact pairs. -/
theorem offers_exactPairs (s : Sides) : s.Offers (exactPairs s) := by
  obtain ⟨hmem, hnodup⟩ := exactFrom_new (byPath s.added) [] (byPath s.deleted)
  refine ⟨?_, ?_⟩
  · refine List.Nodup.subperm (nodup_members hnodup) ?_
    intro c hc
    obtain ⟨p, hp, rfl⟩ := List.mem_map.1 hc
    exact (List.mergeSort_perm _ _).mem_iff.1 (hmem p hp).1
  · exact (exactFrom_old _ _ _).subperm.trans (List.mergeSort_perm _ _).subperm

/-- A deletion and an addition are a candidate exactly if both have content that is similar enough. -/
theorem candidate?_eq_some_iff {threshold : Number} {oldContents newContents : Contents} {old new : FileChange}
    {p : Pair} : candidate? threshold oldContents newContents old new = some p ↔
      p = ⟨old, new, LineOverlap.similarity (contentOf oldContents old) (contentOf newContents new)⟩ ∧
        contentOf oldContents old ≠ [] ∧ contentOf newContents new ≠ [] ∧ threshold.le (.real p.similarity) = true := by
  unfold candidate?
  dsimp only
  by_cases hempty : (contentOf oldContents old).isEmpty || (contentOf newContents new).isEmpty
  · rw [if_pos hempty]
    refine iff_of_false (by simp) fun h => ?_
    simp [h.2.1, h.2.2.1] at hempty
  · rw [if_neg hempty]
    simp only [Bool.or_eq_true, List.isEmpty_iff, not_or] at hempty
    constructor
    · intro h
      split at h
      · next hthreshold =>
        cases h
        exact ⟨rfl, hempty.1, hempty.2, hthreshold⟩
      · cases h
    · rintro ⟨rfl, -, -, hthreshold⟩
      exact if_pos hthreshold

/-- The candidates are pairs of the sides. -/
theorem mem_candidates_iff {threshold : Number} {oldContents newContents : Contents} {s : Sides} {p : Pair} :
    p ∈ candidates threshold oldContents newContents s ↔
      p.old ∈ s.deleted ∧ p.new ∈ s.added ∧ candidate? threshold oldContents newContents p.old p.new = some p := by
  rw [candidates, (List.mergeSort_perm _ _).mem_iff, List.mem_flatMap]
  constructor
  · rintro ⟨old, hold, hp⟩
    obtain ⟨new, hnew, hcandidate⟩ := List.mem_filterMap.1 hp
    obtain ⟨rfl, -⟩ := candidate?_eq_some_iff.1 hcandidate
    exact ⟨hold, hnew, hcandidate⟩
  · rintro ⟨hold, hnew, hcandidate⟩
    exact ⟨p.old, hold, List.mem_filterMap.2 ⟨p.new, hnew, hcandidate⟩⟩

/-- Greedy pairs come from the list, at old paths and at new paths that are different and were not used. -/
theorem greedyFrom_spec (usedOld usedNew : List String) (pairs : List Pair) :
    (∀ p ∈ greedyFrom usedOld usedNew pairs,
      p ∈ pairs ∧ p.old.path ∉ usedOld ∧ p.new.path ∉ usedNew) ∧
    ((greedyFrom usedOld usedNew pairs).map (·.old.path)).Nodup ∧
    ((greedyFrom usedOld usedNew pairs).map (·.new.path)).Nodup := by
  induction pairs generalizing usedOld usedNew with
  | nil => simp [greedyFrom]
  | cons p rest ih =>
    unfold greedyFrom
    split
    · obtain ⟨hmem, hnodup⟩ := ih usedOld usedNew
      exact ⟨fun q hq => ⟨List.mem_cons_of_mem _ (hmem q hq).1, (hmem q hq).2⟩, hnodup⟩
    · next hfree =>
      simp only [Bool.or_eq_true, List.contains_iff_mem, not_or] at hfree
      obtain ⟨hmem, hold, hnew⟩ := ih (p.old.path :: usedOld) (p.new.path :: usedNew)
      have holdFresh : p.old.path ∉ (greedyFrom (p.old.path :: usedOld) (p.new.path :: usedNew) rest).map
          (·.old.path) := by
        intro hin
        obtain ⟨q, hq, heq⟩ := List.mem_map.1 hin
        exact (hmem q hq).2.1 (heq ▸ List.mem_cons_self)
      have hnewFresh : p.new.path ∉ (greedyFrom (p.old.path :: usedOld) (p.new.path :: usedNew) rest).map
          (·.new.path) := by
        intro hin
        obtain ⟨q, hq, heq⟩ := List.mem_map.1 hin
        exact (hmem q hq).2.2 (heq ▸ List.mem_cons_self)
      refine ⟨?_, List.nodup_cons.2 ⟨holdFresh, hold⟩, List.nodup_cons.2 ⟨hnewFresh, hnew⟩⟩
      intro q hq
      rcases List.mem_cons.1 hq with rfl | hrest
      · exact ⟨List.mem_cons_self, hfree⟩
      · obtain ⟨hin, ho, hn⟩ := hmem q hrest
        exact ⟨List.mem_cons_of_mem _ hin, fun h => ho (List.mem_cons_of_mem _ h),
          fun h => hn (List.mem_cons_of_mem _ h)⟩

/-- The sides offer the pairs of similar contents. -/
theorem offers_similarPairs (threshold : Number) (oldContents newContents : Contents) (s : Sides) :
    s.Offers (similarPairs threshold oldContents newContents s) := by
  obtain ⟨hmem, hold, hnew⟩ := greedyFrom_spec [] [] (candidates threshold oldContents newContents s)
  refine ⟨?_, ?_⟩
  · refine List.Nodup.subperm (nodup_members hnew) ?_
    intro c hc
    obtain ⟨p, hp, rfl⟩ := List.mem_map.1 hc
    exact (mem_candidates_iff.1 (hmem p hp).1).2.1
  · refine List.Nodup.subperm (nodup_members hold) ?_
    intro c hc
    obtain ⟨p, hp, rfl⟩ := List.mem_map.1 hc
    exact (mem_candidates_iff.1 (hmem p hp).1).1

/-! ## The whole detection -/

/-- What is left of changes after pairs of equal blobs were taken from them. -/
def leftOf (changes : List FileChange) : Sides :=
  (Sides.ofChanges changes).takeAll (exactPairs (Sides.ofChanges changes))

/-- A list of changes and the one in which pairs were taken from it one at a time. -/
def Reconciled (listed result : List FileChange) : Prop :=
  ∃ s, Relation.ReflTransGen Sides.Takes (Sides.ofChanges listed) s ∧ result = s.changes

/-- Reconciled changes have as much of every conserved quantity as the changes that were listed. -/
theorem Reconciled.flatMap_perm {β : Type} {f : FileChange → List β} (hf : Sides.Conserved f)
    {listed result : List FileChange} (h : Reconciled listed result) :
    (result.flatMap f).Perm (listed.flatMap f) := by
  obtain ⟨s, htakes, rfl⟩ := h
  exact (s.changes_perm_all.flatMap_right f).trans
    ((Sides.flatMap_perm_of_takes hf htakes (Sides.sorted_ofChanges listed)).trans
      ((Sides.all_ofChanges_perm listed).flatMap_right f))

section Reconcile

variable {σ : Type} {load : String → Run σ Bytes} {l : Limits}

/-- Contents are loaded if every one of them can be. -/
theorem isTotal_loadAll (hload : ∀ id, (load id).IsTotal) (blob : FileChange → Option String)
    (changes : List FileChange) (contents : Contents) :
    (loadAll load blob contents changes).IsTotal := by
  induction changes generalizing contents with
  | nil => exact Run.isTotal_pure _
  | cons c rest ih => exact (hload _).bind fun _ => ih _

variable [HasSession σ]

/-- Pairs are settled by taking them. -/
theorem returns_settle {s : Sides} {pairs : List Pair} {t t' : σ} {s' : Sides}
    (h : (settle s pairs).Returns t s' t') : s' = s.takeAll pairs := by
  obtain ⟨_, _, -, h⟩ := Run.returns_bind.1 h
  exact (Run.returns_pure.1 h).1.symm

/-- Settling pairs takes them, and logs them. -/
theorem returns_settle_takeAll (s : Sides) (pairs : List Pair) (t : σ) :
    (settle s pairs).Returns t (s.takeAll pairs) (Run.logged (pairs.map Pair.entry) t) :=
  Run.returns_bind.2 ⟨(), _, Run.returns_logAll.2 rfl, Run.returns_pure.2 ⟨rfl, rfl⟩⟩

/-- Reconciling changes takes pairs of equal blobs from them, and then other pairs of what is left. -/
theorem exists_offers_of_returns {changes result : List FileChange} {t t' : σ}
    (h : (reconcile load l changes).Returns t result t') :
    ∃ pairs, (leftOf changes).Offers pairs ∧ result = ((leftOf changes).takeAll pairs).changes := by
  have hnone : (leftOf changes).Offers [] := ⟨List.nil_subperm, List.nil_subperm⟩
  obtain ⟨left, t₁, hexact, h⟩ := Run.returns_bind.1 h
  obtain rfl : left = leftOf changes := returns_settle hexact
  split at h
  · obtain ⟨final, t₂, hcontents, h⟩ := Run.returns_bind.1 h
    obtain ⟨rfl, -⟩ := Run.returns_pure.1 h
    unfold reconcileContents at hcontents
    split at hcontents
    · obtain ⟨_, _, -, hcontents⟩ := Run.returns_bind.1 hcontents
      exact ⟨[], hnone, congrArg Sides.changes (Run.returns_pure.1 hcontents).1.symm⟩
    · obtain ⟨oldContents, _, -, hcontents⟩ := Run.returns_bind.1 hcontents
      obtain ⟨newContents, _, -, hcontents⟩ := Run.returns_bind.1 hcontents
      exact ⟨_, offers_similarPairs _ _ _ _, congrArg Sides.changes (returns_settle hcontents)⟩
  · exact ⟨[], hnone, (Run.returns_pure.1 h).1.symm⟩

/-- Reconciling changes takes pairs from them one at a time. -/
theorem reconciled_of_returns {changes result : List FileChange} {t t' : σ}
    (h : (reconcile load l changes).Returns t result t') : Reconciled changes result := by
  obtain ⟨pairs, hpairs, rfl⟩ := exists_offers_of_returns h
  exact ⟨_, (offers_exactPairs _).takes.trans hpairs.takes, rfl⟩

/-- Pairs can always be settled. -/
theorem isTotal_settle (s : Sides) (pairs : List Pair) : (settle s pairs : Run σ Sides).IsTotal :=
  (Run.isTotal_update _).bind fun _ => Run.isTotal_pure _

/-- Changes can be reconciled if every content can be loaded. -/
theorem isTotal_reconcile (hload : ∀ id, (load id).IsTotal) (changes : List FileChange) :
    (reconcile load l changes).IsTotal := by
  refine (isTotal_settle _ _).bind fun left => ?_
  split
  · refine Run.IsTotal.bind ?_ fun _ => Run.isTotal_pure _
    unfold reconcileContents
    split
    · exact (Run.isTotal_update _).bind fun _ => Run.isTotal_pure _
    · exact (isTotal_loadAll hload _ _ _).bind fun _ =>
        (isTotal_loadAll hload _ _ _).bind fun _ => isTotal_settle _ _
  · exact Run.isTotal_pure _

end Reconcile

end Hotspots.Renames
