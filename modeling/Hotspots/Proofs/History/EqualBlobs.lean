import Hotspots.Proofs.History.Removals
import Hotspots.Proofs.Run.Exec

/-!
# Pairs of equal blobs

The first phase of rename detection pairs the deletions and the additions of each blob in the order of their paths: the
first deletion with the first addition, the second with the second, until one side has no more
(`exactPairs_of_blob`). It goes by the identifiers of blobs alone and comes before any content is loaded. So no deletion
and addition of one blob are both left, unless the blob is empty (`equal_blobs_paired_in_order`).
-/

namespace Hotspots.Renames

/-! ## Changes in the order of their paths -/

/-- Changes are listed by their paths. -/
theorem pairwise_byPath (changes : List FileChange) : (byPath changes).Pairwise fun a b => a.path ≤ b.path :=
  pairwise_mergeSort_key FileChange.path changes

/-- Changes listed by their paths are the same changes. -/
theorem byPath_perm (changes : List FileChange) : (byPath changes).Perm changes := List.mergeSort_perm _ _

/-- Of changes with different paths some are listed as they are among all. -/
theorem filter_byPath {changes : List FileChange} (hpaths : (changes.map FileChange.path).Nodup)
    (keep : FileChange → Bool) : (byPath changes).filter keep = byPath (changes.filter keep) :=
  eq_mergeSort_of_perm (hpaths.sublist (List.filter_sublist.map _)) ((byPath_perm changes).filter keep)
    ((pairwise_byPath changes).filter keep)

/-! ## The pairs of one blob -/

/-- A deletion and an addition of one blob. -/
def equalPair (old new : FileChange) : Pair := ⟨old, new, .ofInt 1⟩

/-- The additions of a blob at paths that are not taken. -/
def freeOf (blob : String) (taken : List String) (added : List FileChange) : List FileChange :=
  added.filter fun c => c.newBlob == some blob && !taken.contains c.path

/-- A deletion of a blob is paired with the first free addition of the blob, if the blob is not empty. -/
theorem exactPartner?_eq_head? {blob : String} (hblob : blob ∉ emptyBlobs) {old : FileChange}
    (hold : old.oldBlob = some blob) (added : List FileChange) (taken : List String) :
    exactPartner? added taken old = (freeOf blob taken added).head? := by
  have hfree : ∀ new : FileChange,
      (new.newBlob == old.oldBlob && !(new.newBlob.any emptyBlobs.contains) && !taken.contains new.path) =
        (new.newBlob == some blob && !taken.contains new.path) := by
    intro new
    rw [hold]
    by_cases hnew : new.newBlob = some blob
    · simp [hnew, hblob]
    · rw [beq_eq_false_iff_ne.2 hnew, Bool.false_and, Bool.false_and]
  rw [exactPartner?, freeOf, List.head?_filter]
  exact congrArg (fun p => added.find? p) (funext hfree)

/-- When a path is taken, the free additions are those at other paths. -/
theorem freeOf_cons (blob path : String) (taken : List String) (added : List FileChange) :
    freeOf blob (path :: taken) added = (freeOf blob taken added).filter fun c => c.path != path := by
  rw [freeOf, freeOf, List.filter_filter]
  refine List.filter_congr fun c _ => ?_
  rw [List.contains_cons, Bool.not_or, bne, Bool.and_left_comm]

/-- When the first free addition is taken, the others are free. -/
theorem freeOf_cons_of_eq_cons {blob : String} {added : List FileChange} (hpaths : (added.map FileChange.path).Nodup)
    {taken : List String} {new : FileChange} {free : List FileChange} (h : freeOf blob taken added = new :: free) :
    freeOf blob (new.path :: taken) added = free := by
  have hfree : ((new :: free).map FileChange.path).Nodup :=
    hpaths.sublist ((h ▸ List.filter_sublist : (new :: free).Sublist added).map _)
  rw [List.map_cons, List.nodup_cons] at hfree
  rw [freeOf_cons, h, List.filter_cons_of_neg (by simp)]
  exact List.filter_eq_self.2 fun c hc => bne_iff_ne.2 fun heq => hfree.1 (heq ▸ List.mem_map_of_mem hc)

/-- When an addition of another blob is taken, the same additions are free. -/
theorem freeOf_cons_of_ne {blob : String} {added : List FileChange} (hpaths : (added.map FileChange.path).Nodup)
    {new : FileChange} (hnew : new ∈ added) (hother : new.newBlob ≠ some blob) (taken : List String) :
    freeOf blob (new.path :: taken) added = freeOf blob taken added := by
  rw [freeOf_cons]
  refine List.filter_eq_self.2 fun c hc => bne_iff_ne.2 fun heq => ?_
  obtain ⟨hmem, hkeep⟩ := List.mem_filter.1 hc
  obtain rfl : c = new := List.inj_on_of_nodup_map hpaths hmem hnew heq
  exact hother (by simpa using ((Bool.and_eq_true _ _).mp hkeep).1)

/-- The pairs of a blob go along its deletions and its free additions. -/
theorem filter_exactFrom {blob : String} (hblob : blob ∉ emptyBlobs) {added : List FileChange}
    (hpaths : (added.map FileChange.path).Nodup) (taken : List String) (deleted : List FileChange) :
    (exactFrom added taken deleted).filter (fun p => p.old.oldBlob == some blob) =
      List.zipWith equalPair (deleted.filter fun c => c.oldBlob == some blob) (freeOf blob taken added) := by
  -- A deletion of the blob uses up the first free addition, and a deletion of another blob leaves them all free.
  induction deleted generalizing taken with
  | nil => rfl
  | cons old rest ih =>
    by_cases hold : old.oldBlob = some blob
    · rw [List.filter_cons_of_pos (p := fun c : FileChange => c.oldBlob == some blob) (by simpa using hold)]
      cases hfree : freeOf blob taken added with
      | nil =>
        have hnone : exactPartner? added taken old = none := by
          rw [exactPartner?_eq_head? hblob hold, hfree, List.head?_nil]
        rw [exactFrom, hnone, ih, hfree, List.zipWith_nil_right, List.zipWith_nil_right]
      | cons new free =>
        have hsome : exactPartner? added taken old = some new := by
          rw [exactPartner?_eq_head? hblob hold, hfree, List.head?_cons]
        rw [exactFrom, hsome, List.filter_cons_of_pos (by simpa using hold), ih, freeOf_cons_of_eq_cons hpaths hfree,
          List.zipWith_cons_cons, equalPair]
    · rw [List.filter_cons_of_neg (p := fun c : FileChange => c.oldBlob == some blob) (by simpa using hold), exactFrom]
      split
      · next new hnew =>
        obtain ⟨hmem, hsame, -⟩ := exactPartner?_some hnew
        rw [List.filter_cons_of_neg (by simpa using hold), ih,
          freeOf_cons_of_ne hpaths hmem (fun h => hold (hsame.symm.trans h))]
      · exact ih taken

/-! ## One blob among the changes of a commit -/

/-- Whether a change deletes a blob. -/
def deletes (blob : String) (c : FileChange) : Bool := isDeletion c && c.oldBlob == some blob

/-- Whether a change adds a blob. -/
def adds (blob : String) (c : FileChange) : Bool := isAddition c && c.newBlob == some blob

/-- Whether a change is a rename of an unchanged blob. -/
def moves (blob : String) (c : FileChange) : Bool :=
  c.kind == .renamed && c.oldBlob == some blob && c.newBlob == some blob

/-- The deletions of a blob with its additions: the first by path with the first by path, and so on. -/
def pairsOf (blob : String) (changes : List FileChange) : List Pair :=
  List.zipWith equalPair (byPath (changes.filter (deletes blob))) (byPath (changes.filter (adds blob)))

variable {blob : String} {changes : List FileChange}

/-- A blob has as many pairs as it has deletions, or as it has additions if these are fewer. -/
theorem length_pairsOf (blob : String) (changes : List FileChange) :
    (pairsOf blob changes).length = min (changes.countP (deletes blob)) (changes.countP (adds blob)) := by
  rw [pairsOf, List.length_zipWith, (byPath_perm _).length_eq, (byPath_perm _).length_eq, List.countP_eq_length_filter,
    List.countP_eq_length_filter]

/-- The pairs of a blob go along its deletions and its additions in the order of their paths. -/
theorem exactPairs_of_blob (hblob : blob ∉ emptyBlobs) (hpaths : (changes.map FileChange.path).Nodup) :
    (exactPairs (Sides.ofChanges changes)).filter (fun p => p.old.oldBlob == some blob) =
      pairsOf blob changes := by
  have hside : ∀ side : FileChange → Bool, ((changes.filter side).map FileChange.path).Nodup := fun side =>
    hpaths.sublist (List.filter_sublist.map _)
  have hdeletions : (byPath (changes.filter isDeletion)).filter (fun c => c.oldBlob == some blob) =
      byPath (changes.filter (deletes blob)) := by
    rw [filter_byPath (hside _), List.filter_filter]
    exact congrArg byPath (List.filter_congr fun c _ => Bool.and_comm _ _)
  have hadditions : freeOf blob [] (byPath (changes.filter isAddition)) = byPath (changes.filter (adds blob)) := by
    rw [freeOf, filter_byPath (hside _), List.filter_filter]
    exact congrArg byPath (List.filter_congr fun c _ => by simp [adds, Bool.and_comm])
  have hadded : ((byPath (Sides.ofChanges changes).added).map FileChange.path).Nodup :=
    ((byPath_perm _).map _).nodup_iff.2 (hside isAddition)
  exact (filter_exactFrom hblob hadded [] _).trans (congrArg₂ _ hdeletions hadditions)

/-- Where there are no fewer additions, every deletion is paired. -/
theorem map_old_zipWith {olds news : List FileChange} (h : olds.length ≤ news.length) :
    (List.zipWith equalPair olds news).map Pair.old = olds := by
  rw [List.map_zipWith]
  induction olds generalizing news with
  | nil => rfl
  | cons old rest ih =>
    cases news with
    | nil => cases h
    | cons new more => exact congrArg (old :: ·) (ih (Nat.le_of_succ_le_succ h))

/-- Where there are no fewer deletions, every addition is paired. -/
theorem map_new_zipWith {olds news : List FileChange} (h : news.length ≤ olds.length) :
    (List.zipWith equalPair olds news).map Pair.new = news := by
  rw [List.map_zipWith]
  induction news generalizing olds with
  | nil => cases olds <;> rfl
  | cons new rest ih =>
    cases olds with
    | nil => cases h
    | cons old more => exact congrArg (new :: ·) (ih (Nat.le_of_succ_le_succ h))

/-- What is left was not paired. -/
theorem not_mem_exactPairs_of_left (hpaths : (changes.map FileChange.path).Nodup) :
    (∀ c ∈ (leftOf changes).deleted, c ∉ (exactPairs (Sides.ofChanges changes)).map Pair.old) ∧
      ∀ c ∈ (leftOf changes).added, c ∉ (exactPairs (Sides.ofChanges changes)).map Pair.new := by
  have hnodup : ∀ side : FileChange → Bool, (changes.filter side).Nodup := fun side =>
    (List.Nodup.of_map _ hpaths).filter side
  have hoffers := offers_exactPairs (Sides.ofChanges changes)
  have hold := hoffers.deleted_perm.nodup_iff.1 (hnodup isDeletion)
  have hnew := hoffers.added_perm.nodup_iff.1 (hnodup isAddition)
  exact ⟨fun c hc hpair => List.disjoint_of_nodup_append hold hc hpair,
    fun c hc hpair => List.disjoint_of_nodup_append hnew hc hpair⟩

/-- Not both a deletion and an addition of a blob are left, unless the blob is empty. -/
theorem not_both_left (hblob : blob ∉ emptyBlobs) (hpaths : (changes.map FileChange.path).Nodup)
    {old new : FileChange} (hold : old ∈ (leftOf changes).deleted) (hnew : new ∈ (leftOf changes).added) :
    ¬(old.oldBlob = some blob ∧ new.newBlob = some blob) := by
  rintro ⟨holdBlob, hnewBlob⟩
  obtain ⟨hunpairedOld, hunpairedNew⟩ := not_mem_exactPairs_of_left hpaths
  have hdeletes : old ∈ byPath (changes.filter (deletes blob)) := by
    obtain ⟨hmem, hdeletion⟩ := List.mem_filter.1 ((Sides.deleted_takeAll_sublist _ _).subset hold)
    exact (byPath_perm _).mem_iff.2 (List.mem_filter.2 ⟨hmem, by simp [deletes, hdeletion, holdBlob]⟩)
  have hadds : new ∈ byPath (changes.filter (adds blob)) := by
    obtain ⟨hmem, haddition⟩ := List.mem_filter.1 ((Sides.added_takeAll_sublist _ _).subset hnew)
    exact (byPath_perm _).mem_iff.2 (List.mem_filter.2 ⟨hmem, by simp [adds, haddition, hnewBlob]⟩)
  have hpairs : ∀ p ∈ pairsOf blob changes, p ∈ exactPairs (Sides.ofChanges changes) := fun p hp =>
    List.mem_of_mem_filter (exactPairs_of_blob hblob hpaths ▸ hp)
  -- The shorter side is paired to its end, and so is the change of this side.
  rcases Nat.le_total (byPath (changes.filter (deletes blob))).length (byPath (changes.filter (adds blob))).length
    with hle | hle
  · rw [← map_old_zipWith hle] at hdeletes
    exact hunpairedOld old hold (List.map_subset _ hpairs hdeletes)
  · rw [← map_new_zipWith hle] at hadds
    exact hunpairedNew new hnew (List.map_subset _ hpairs hadds)

/-- What moves a blob neither adds nor deletes one. -/
theorem isOther_of_moves (blob : String) (c : FileChange) (h : moves blob c = true) : isOther c = true := by
  cases hkind : c.kind <;> simp_all [moves, isOther, isAddition, isDeletion]

/-- The renames of an unchanged blob are those that were listed and those of the pairs of the blob. -/
theorem filter_moves_perm (hblob : blob ∉ emptyBlobs) (hpaths : (changes.map FileChange.path).Nodup) {pairs : List Pair}
    (hpairs : (leftOf changes).Offers pairs) :
    (((leftOf changes).takeAll pairs).changes.filter (moves blob)).Perm
      (changes.filter (moves blob) ++ (pairsOf blob changes).map Pair.change) := by
  have hequal : ((exactPairs (Sides.ofChanges changes)).map Pair.change).filter (moves blob) =
      ((exactPairs (Sides.ofChanges changes)).filter fun p => p.old.oldBlob == some blob).map Pair.change := by
    rw [List.filter_map]
    refine congrArg (List.map Pair.change) (List.filter_congr fun p hp => ?_)
    obtain ⟨-, hsame, -⟩ := blobs_of_mem_exactFrom hp
    simp [moves, Pair.change, hsame]
  have hsimilar : (pairs.map Pair.change).filter (moves blob) = [] := by
    refine List.filter_eq_nil_iff.2 fun c hc hmoves => ?_
    obtain ⟨p, hp, rfl⟩ := List.mem_map.1 hc
    have hblobs : p.old.oldBlob = some blob ∧ p.new.newBlob = some blob := by
      simpa [moves, Pair.change] using hmoves
    exact not_both_left hblob hpaths (hpairs.old.subset (List.mem_map_of_mem hp))
      (hpairs.new.subset (List.mem_map_of_mem hp)) hblobs
  have hsettled := ((Sides.parted_leftOf changes).takeAll pairs).filter_settled_perm (isOther_of_moves blob)
  rwa [Sides.settled_takeAll, leftOf, Sides.settled_takeAll, List.filter_append, List.filter_append,
    Sides.filter_settled_ofChanges (isOther_of_moves blob), hequal, hsimilar, List.append_nil,
    exactPairs_of_blob hblob hpaths] at hsettled

/-! ## The whole detection -/

section Reconcile

variable {σ : Type} [HasSession σ]

/-- If no content can be loaded, the run ends at the first one, when all pairs of equal blobs were taken. -/
theorem eq_logged_of_exec_error {l : Limits} {e : Failure} {t t' : σ} {e' : Failure}
    (h : Run.exec (reconcile (fun _ => Run.fail e) l changes) t = (.error e', t')) :
    t' = Run.logged ((exactPairs (Sides.ofChanges changes)).map Pair.entry) t := by
  have hsettle : Run.exec (settle (Sides.ofChanges changes) (exactPairs (Sides.ofChanges changes)) : Run σ Sides) t =
      (.ok (leftOf changes), Run.logged ((exactPairs (Sides.ofChanges changes)).map Pair.entry) t) := rfl
  have hfirst : ∀ s : σ, ∀ c rest, Run.exec (loadAll (fun _ => Run.fail e) FileChange.oldBlob [] (c :: rest)) s =
      (.error e, s) := fun _ _ _ => rfl
  rw [reconcile, Run.exec_bind_of_ok hsettle] at h
  cases hdeleted : (leftOf changes).deleted with
  | nil =>
    rw [if_neg (by simp [Sides.isOpen, hdeleted])] at h
    cases h
  | cons c rest =>
    split at h
    · unfold reconcileContents at h
      split at h
      · cases h
      · rw [hdeleted, Run.exec_bind_of_error (Run.exec_bind_of_error (hfirst _ c rest))] at h
        exact (congrArg Prod.snd h).symm
    · cases h

/-- Equal blobs are paired in order and completely. For every blob that is not empty, the first phase pairs its deletions
with its additions, the first by path with the first by path and so on, until one side has no more; all of its pairs are
of this form, so that it pairs no empty blob. The phase is over when the first content is loaded. Whatever the limits
are, a result has these renames of unchanged blobs and no others, and of a blob that is not empty it does not have both
a deletion and an addition. -/
theorem equal_blobs_paired_in_order (load : String → Run σ Bytes) (l : Limits)
    (hpaths : (changes.map FileChange.path).Nodup) :
    (∀ blob, blob ∉ emptyBlobs →
      (exactPairs (Sides.ofChanges changes)).filter (fun p => p.old.oldBlob == some blob) = pairsOf blob changes ∧
        (pairsOf blob changes).length = min (changes.countP (deletes blob)) (changes.countP (adds blob))) ∧
    (∀ p ∈ exactPairs (Sides.ofChanges changes),
      p.similarity = .ofInt 1 ∧ ∃ blob, blob ∉ emptyBlobs ∧ p.old.oldBlob = some blob ∧ p.new.newBlob = some blob) ∧
    (∀ (e e' : Failure) (t t' : σ), Run.exec (reconcile (fun _ => Run.fail e) l changes) t = (.error e', t') →
      t' = Run.logged ((exactPairs (Sides.ofChanges changes)).map Pair.entry) t) ∧
    ((∀ id, (load id).IsTotal) → (reconcile load l changes).IsTotal) ∧
    ∀ t result t', (reconcile load l changes).Returns t result t' →
      (∀ blob, blob ∉ emptyBlobs → (result.filter (moves blob)).Perm
        (changes.filter (moves blob) ++ (pairsOf blob changes).map Pair.change)) ∧
      ∀ old ∈ result, ∀ new ∈ result, isDeletion old = true → isAddition new = true → old.oldBlob = new.newBlob →
        ∃ blob ∈ emptyBlobs, old.oldBlob = some blob := by
  refine ⟨fun blob hblob => ⟨exactPairs_of_blob hblob hpaths, length_pairsOf blob changes⟩, fun p hp => ?_,
    fun e e' t t' h => eq_logged_of_exec_error h, fun hload => isTotal_reconcile hload changes, fun t result t' h => ?_⟩
  · obtain ⟨hequal, hsame, hempty⟩ := blobs_of_mem_exactFrom hp
    have hdeletion : p.old ∈ changes.filter isDeletion :=
      (offers_exactPairs (Sides.ofChanges changes)).old.subset (List.mem_map_of_mem hp)
    obtain ⟨blob, hblob⟩ := Sides.exists_blob_of_isDeletion (List.mem_filter.1 hdeletion).2
    exact ⟨hequal, blob, hempty blob hblob, hblob, hsame.trans hblob⟩
  · obtain ⟨pairs, hpairs, rfl⟩ := exists_offers_of_returns h
    refine ⟨fun blob hblob => filter_moves_perm hblob hpaths hpairs, fun old hold new hnew hdeletion haddition hsame => ?_⟩
    have hparted := (Sides.parted_leftOf changes).takeAll pairs
    have holdLeft : old ∈ (leftOf changes).deleted := (Sides.deleted_takeAll_sublist _ _).subset
      (hparted.filter_isDeletion_perm.subset (List.mem_filter.2 ⟨hold, hdeletion⟩))
    have hnewLeft : new ∈ (leftOf changes).added := (Sides.added_takeAll_sublist _ _).subset
      (hparted.filter_isAddition_perm.subset (List.mem_filter.2 ⟨hnew, haddition⟩))
    obtain ⟨blob, hblob⟩ := Sides.exists_blob_of_isDeletion hdeletion
    by_contra hnone
    have hfull : blob ∉ emptyBlobs := fun hempty => hnone ⟨blob, hempty, hblob⟩
    exact not_both_left hfull hpaths holdLeft hnewLeft ⟨hblob, hsame.symm.trans hblob⟩

/-- Of the blob "b" two deletions and three additions are paired, and of the empty blob none; no content is needed. -/
theorem equal_blobs_paired_in_order_copies :
    let copied := [⟨.added, "z", none, none, some "b", .zero⟩, ⟨.deleted, "d", none, some "b", none, .zero⟩,
      ⟨.added, "x", none, none, some "b", .zero⟩, ⟨.deleted, "c", none, some "b", none, .zero⟩,
      ⟨.added, "y", none, none, some "b", .zero⟩,
      ⟨.deleted, "e", none, some "e69de29bb2d1d6434b8b29ae775ad8c2e48c5391", none, .zero⟩,
      ⟨.added, "w", none, none, some "e69de29bb2d1d6434b8b29ae775ad8c2e48c5391", .zero⟩]
    (copied.map FileChange.path).Nodup ∧
      (exactPairs (Sides.ofChanges copied)).filter (fun p => p.old.oldBlob == some "b") = pairsOf "b" copied ∧
      (pairsOf "b" copied).map (fun p => (p.old.path, p.new.path)) = [("c", "x"), ("d", "y")] := by
  intro copied
  have hpaths : (copied.map FileChange.path).Nodup := by decide
  have hpairs := (equal_blobs_paired_in_order (fun id => (pure id.toUTF8.toList : Run Session Bytes)) {} hpaths).1 "b"
    (by decide)
  have hdeletions : copied.filter (deletes "b") =
      [⟨.deleted, "d", none, some "b", none, .zero⟩, ⟨.deleted, "c", none, some "b", none, .zero⟩] := by decide
  have hadditions : copied.filter (adds "b") = [⟨.added, "z", none, none, some "b", .zero⟩,
      ⟨.added, "x", none, none, some "b", .zero⟩, ⟨.added, "y", none, none, some "b", .zero⟩] := by decide
  have hmembers : List.zipWith (fun old new : FileChange => (old.path, new.path)) (byPath (copied.filter (deletes "b")))
      (byPath (copied.filter (adds "b"))) = [("c", "x"), ("d", "y")] := by
    rw [hdeletions, hadditions]
    simp [byPath, List.mergeSort]
  exact ⟨hpaths, hpairs.1, List.map_zipWith.trans hmembers⟩

end Reconcile

end Hotspots.Renames
