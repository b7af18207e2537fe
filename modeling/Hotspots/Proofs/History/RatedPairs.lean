import Hotspots.Proofs.History.AlikeContents
import Hotspots.Proofs.History.Pairing
import Hotspots.Proofs.Record.Lookup

/-!
# The similarity of a rename

Contents are kept by the identifiers of their blobs. Every rename that is found among the changes of a commit is a
pair that is rated by the store: it has similarity 1 because its blobs are equal, or the similarity of the two
contents (`isRated_of_returns`). So the similarity of a rename is 1 exactly if the blobs are equal or the contents
are alike (`Pair.IsRated.similarity_eq_one_iff`).
-/

namespace Hotspots

/-- The contents of blobs by their identifiers. -/
abbrev BlobStore := String → Option Bytes

namespace BlobStore

/-- Contents that are equal have one identifier. -/
def IsContentAddressed (store : BlobStore) : Prop :=
  ∀ id other content, store id = some content → store other = some content → id = other

/-- Whatever is loaded is the content in the store. -/
def IsLoadedBy {σ : Type} (store : BlobStore) (load : String → Run σ Bytes) : Prop :=
  ∀ id s content s', (load id).Returns s content s' → store id = some content

/-- The content of a blob of a change. -/
def content? (store : BlobStore) (blob : Option String) : Option Bytes := blob.bind store

end BlobStore

/-- A rename between contents that are alike. -/
def FileChange.HasAlikeContents (store : BlobStore) (c : FileChange) : Prop :=
  ∃ old new, store.content? c.oldBlob = some old ∧ store.content? c.newBlob = some new ∧
    LineOverlap.AreAlike old new

namespace Renames

variable {store : BlobStore}

/-- A pair that is rated by a store. -/
inductive Pair.IsRated (store : BlobStore) (p : Pair) : Prop
  /-- Equal blobs have similarity 1. -/
  | exact (hblobs : p.old.oldBlob = p.new.newBlob) (hsimilarity : p.similarity = .ofInt 1)
  /-- Other pairs have the similarity of their contents. -/
  | similar (old new : Bytes) (hold : store.content? p.old.oldBlob = some old)
    (hnew : store.content? p.new.newBlob = some new) (hsimilarity : p.similarity = LineOverlap.similarity old new)

namespace Pair.IsRated

variable {p : Pair}

/-- A rated pair has similarity 1 exactly if its blobs are equal or its contents are alike. -/
theorem similarity_eq_one_iff (h : p.IsRated store) :
    p.similarity = .ofInt 1 ↔ p.old.oldBlob = p.new.newBlob ∨ p.change.HasAlikeContents store := by
  cases h with
  | exact hblobs hsimilarity => exact iff_of_true hsimilarity (.inl hblobs)
  | similar old new hold hnew hsimilarity =>
    rw [hsimilarity, LineOverlap.similarity_eq_one_iff]
    constructor
    · exact fun halike => .inr ⟨old, new, hold, hnew, halike⟩
    · rintro (hblobs | ⟨old', new', hold', hnew', halike⟩)
      · rw [hblobs, hnew, Option.some.injEq] at hold
        exact hold ▸ LineOverlap.areAlike_self new
      · cases hold.symm.trans hold'
        cases hnew.symm.trans hnew'
        exact halike

/-- A rated pair counts as edited exactly if its similarity is not 1. -/
theorem similarity_lt_one_iff (h : p.IsRated store) :
    p.similarity.lt (.ofInt 1) = true ↔ p.similarity ≠ .ofInt 1 := by
  cases h with
  | exact _ hsimilarity =>
    rw [hsimilarity, Binary64.ofInt_one]
    simp [Binary64.lt]
  | similar old new _ _ hsimilarity =>
    rw [hsimilarity]
    exact LineOverlap.similarity_lt_one_iff old new

/-- A rated pair has equal blobs exactly if it has equal contents. -/
theorem blobs_eq_iff (hstore : store.IsContentAddressed) (h : p.IsRated store) :
    p.old.oldBlob = p.new.newBlob ↔ store.content? p.old.oldBlob = store.content? p.new.newBlob := by
  cases h with
  | exact hblobs _ => exact iff_of_true hblobs (congrArg _ hblobs)
  | similar old new hold hnew _ =>
    refine ⟨congrArg _, fun hsame => ?_⟩
    rw [hold, hnew, Option.some.injEq] at hsame
    subst hsame
    obtain ⟨id, hid, hcontent⟩ := Option.bind_eq_some_iff.1 hold
    obtain ⟨other, hother, hcontent'⟩ := Option.bind_eq_some_iff.1 hnew
    rw [hid, hother, hstore id other old hcontent hcontent']

end Pair.IsRated

/-! ## The pairs of both phases -/

/-- Exact pairs are rated. -/
theorem isRated_of_mem_exactFrom {added deleted : List FileChange} {taken : List String} {p : Pair}
    (h : p ∈ exactFrom added taken deleted) : p.IsRated store := by
  obtain ⟨hsimilarity, hsame, -⟩ := blobs_of_mem_exactFrom h
  exact .exact hsame.symm hsimilarity

/-- Contents by path that are those of the store. -/
def AreStored (store : BlobStore) (blob : FileChange → Option String) (contents : Contents)
    (changes : List FileChange) : Prop :=
  ∀ c ∈ changes, store.content? (blob c) = some (contentOf contents c)

/-- A candidate is rated. -/
theorem isRated_of_mem_candidates {threshold : Number} {oldContents newContents : Contents} {s : Sides} {p : Pair}
    (hold : AreStored store FileChange.oldBlob oldContents s.deleted)
    (hnew : AreStored store FileChange.newBlob newContents s.added)
    (h : p ∈ candidates threshold oldContents newContents s) : p.IsRated store := by
  obtain ⟨hmemOld, hmemNew, hcandidate⟩ := mem_candidates_iff.1 h
  obtain ⟨hp, -⟩ := candidate?_eq_some_iff.1 hcandidate
  exact .similar _ _ (hold p.old hmemOld) (hnew p.new hmemNew) (congrArg Pair.similarity hp)

/-! ## Loading -/

section Load

variable {σ : Type} {load : String → Run σ Bytes}

/-- Changes of distinct paths are loaded from the store, and the contents of other paths are kept. -/
theorem areStored_of_returns_loadAll (hload : store.IsLoadedBy load) {blob : FileChange → Option String}
    {changes : List FileChange} (hnamed : ∀ c ∈ changes, isNamed (blob c) = true)
    (hpaths : (changes.map FileChange.path).Nodup) {contents result : Contents} {s s' : σ}
    (h : (loadAll load blob contents changes).Returns s result s') :
    AreStored store blob result changes ∧
      ∀ path, path ∉ changes.map FileChange.path → Record.get? path result = Record.get? path contents := by
  -- That other paths are kept is what lets the content of an earlier change survive the later ones.
  induction changes generalizing contents s with
  | nil =>
    obtain ⟨rfl, -⟩ := Run.returns_pure.1 h
    exact ⟨by simp [AreStored], fun _ _ => rfl⟩
  | cons c rest ih =>
    rw [List.map_cons, List.nodup_cons] at hpaths
    obtain ⟨content, s₁, hcontent, h⟩ := Run.returns_bind.1 h
    obtain ⟨hrest, hkept⟩ := ih (fun d hd => hnamed d (List.mem_cons_of_mem _ hd)) hpaths.2 h
    refine ⟨List.forall_mem_cons.2 ⟨?_, hrest⟩, fun path hpath => ?_⟩
    · obtain ⟨id, hid⟩ : ∃ id, blob c = some id := by
        have hc := hnamed c List.mem_cons_self
        cases hblob : blob c with
        | none => simp [hblob, isNamed] at hc
        | some id => exact ⟨id, rfl⟩
      have hstored := hload _ _ _ _ hcontent
      rw [contentOf, hkept c.path hpaths.1, Record.get?_put_self]
      rw [hid] at hstored ⊢
      exact hstored
    · rw [List.map_cons, List.mem_cons, not_or] at hpath
      rw [hkept path hpath.2, Record.get?_put_of_ne hpath.1]

end Load

/-! ## The whole detection -/

namespace Sides

/-- All renames of the sides are rated pairs, and the other changes have their sides. -/
structure Rated (store : BlobStore) (s : Sides) : Prop extends s.Sorted where
  isRated : ∀ c ∈ s.settled, c.kind = .renamed → ∃ p : Pair, c = p.change ∧ p.IsRated store

/-- Taking rated pairs leaves rated sides. -/
theorem Rated.takeAll {s : Sides} (h : s.Rated store) {pairs : List Pair} (hpairs : ∀ p ∈ pairs, p.IsRated store) :
    (s.takeAll pairs).Rated store where
  isAddition c hc := h.isAddition c ((s.added_takeAll_sublist pairs).subset hc)
  isDeletion c hc := h.isDeletion c ((s.deleted_takeAll_sublist pairs).subset hc)
  isRated c hc hkind := by
    rw [settled_takeAll, List.mem_append] at hc
    rcases hc with hc | hc
    · exact h.isRated c hc hkind
    · obtain ⟨p, hp, rfl⟩ := List.mem_map.1 hc
      exact ⟨p, rfl, hpairs p hp⟩

/-- Sides of changes without renames are rated. -/
theorem rated_ofChanges {changes : List FileChange} (hraw : ∀ c ∈ changes, c.kind ≠ .renamed) :
    (ofChanges changes).Rated store where
  toSorted := sorted_ofChanges changes
  isRated c hc hkind := (hraw c (List.mem_of_mem_filter hc) hkind).elim

/-- A rename among the changes of rated sides is a rated pair. -/
theorem Rated.isRated_of_mem_changes {s : Sides} (h : s.Rated store) {c : FileChange} (hc : c ∈ s.changes)
    (hkind : c.kind = .renamed) : ∃ p : Pair, c = p.change ∧ p.IsRated store := by
  have hall := s.changes_perm_all.subset hc
  rw [all, List.mem_append, List.mem_append] at hall
  rcases hall with (hsettled | hadded) | hdeleted
  · exact h.isRated c hsettled hkind
  · have hadd := h.isAddition c hadded
    simp [Renames.isAddition, hkind] at hadd
  · have hdel := h.isDeletion c hdeleted
    simp [Renames.isDeletion, hkind] at hdel

end Sides

section Reconcile

variable {σ : Type} [HasSession σ] {load : String → Run σ Bytes} {l : Limits}

/-- Pairing by content leaves rated sides. -/
theorem rated_of_returns_reconcileContents (hload : store.IsLoadedBy load) {s result : Sides}
    (hs : s.Rated store) (hadded : (s.added.map FileChange.path).Nodup)
    (hdeleted : (s.deleted.map FileChange.path).Nodup) {t t' : σ}
    (h : (reconcileContents load l s).Returns t result t') : result.Rated store := by
  unfold reconcileContents at h
  split at h
  · obtain ⟨_, _, -, h⟩ := Run.returns_bind.1 h
    obtain ⟨rfl, -⟩ := Run.returns_pure.1 h
    exact hs
  · obtain ⟨oldContents, _, hold, h⟩ := Run.returns_bind.1 h
    obtain ⟨newContents, _, hnew, h⟩ := Run.returns_bind.1 h
    have hnamedOld : ∀ c ∈ s.deleted, isNamed c.oldBlob = true := fun c hc =>
      ((Bool.and_eq_true _ _).mp (hs.isDeletion c hc)).2
    have hnamedNew : ∀ c ∈ s.added, isNamed c.newBlob = true := fun c hc =>
      ((Bool.and_eq_true _ _).mp (hs.isAddition c hc)).2
    have hstoredOld := (areStored_of_returns_loadAll hload hnamedOld hdeleted hold).1
    have hstoredNew := (areStored_of_returns_loadAll hload hnamedNew hadded hnew).1
    rw [returns_settle h]
    refine hs.takeAll fun p hp => ?_
    exact isRated_of_mem_candidates hstoredOld hstoredNew ((greedyFrom_spec [] [] _).1 p hp).1

/-- Every rename that is found among changes of distinct paths is a rated pair. -/
theorem isRated_of_returns (hload : store.IsLoadedBy load) {changes result : List FileChange}
    (hraw : ∀ c ∈ changes, c.kind ≠ .renamed) (hpaths : (changes.map FileChange.path).Nodup) {t t' : σ}
    (h : (reconcile load l changes).Returns t result t') :
    ∀ c ∈ result, c.kind = .renamed → ∃ p : Pair, c = p.change ∧ p.IsRated store := by
  obtain ⟨left, t₁, hexact, h⟩ := Run.returns_bind.1 h
  have hrated : left.Rated store := by
    rw [returns_settle hexact]
    exact (Sides.rated_ofChanges hraw).takeAll fun p hp => isRated_of_mem_exactFrom hp
  split at h
  · obtain ⟨final, t₂, hcontents, h⟩ := Run.returns_bind.1 h
    obtain ⟨rfl, -⟩ := Run.returns_pure.1 h
    have hadded : (left.added.map FileChange.path).Nodup := by
      rw [returns_settle hexact]
      exact hpaths.sublist (((Sides.added_takeAll_sublist _ _).trans List.filter_sublist).map _)
    have hdeleted : (left.deleted.map FileChange.path).Nodup := by
      rw [returns_settle hexact]
      exact hpaths.sublist (((Sides.deleted_takeAll_sublist _ _).trans List.filter_sublist).map _)
    exact fun c hc hkind =>
      (rated_of_returns_reconcileContents hload hrated hadded hdeleted hcontents).isRated_of_mem_changes hc hkind
  · obtain ⟨rfl, -⟩ := Run.returns_pure.1 h
    exact fun c hc hkind => hrated.isRated_of_mem_changes hc hkind

end Reconcile

end Renames

end Hotspots
