import Hotspots.Proofs.History.Pairing
import Hotspots.Proofs.Record.Sorted
import Mathlib.Data.Prod.Lex
import Mathlib.Data.String.Basic

/-!
# Nothing is lost in pairing

A pair is taken by removing its members from two lists, and what is not in a list cannot be removed from it. The pairs
of both phases are offered by the lists at the moment they are taken, even where paths or whole changes are repeated, so
that no removal fails (`reconcileWith_settleRemoving`). Each pair turns one addition and one deletion into one rename
and leaves the other changes as they are (`Balanced`), and the result is listed by path and kind
(`reconcile_balanced`).
-/

open scoped List

namespace Hotspots.Renames

/-! ## Removals -/

/-- A list without its first entry that is equal to a change. A change that is not in the list cannot be removed. -/
def removed (c : FileChange) (changes : List FileChange) : Except Fault (List FileChange) :=
  if c ∈ changes then .ok (changes.erase c)
  else .error (.other "ValueError" "list.remove(x): x not in list")

namespace Sides

/-- The sides after the members of a pair are removed from them. -/
def remove (s : Sides) (p : Pair) : Except Fault Sides := do
  let added ← removed p.new s.added
  let deleted ← removed p.old s.deleted
  return { added, deleted, settled := s.settled ++ [p.change] }

/-- The sides after the members of pairs are removed from them. -/
def removeAll (s : Sides) (pairs : List Pair) : Except Fault Sides := pairs.foldlM remove s

/-- A pair whose members are there can be removed. -/
theorem remove_eq {s : Sides} {p : Pair} (hnew : p.new ∈ s.added) (hold : p.old ∈ s.deleted) :
    s.remove p = .ok (s.take p) := by
  rw [remove, removed, if_pos hnew, removed, if_pos hold]
  rfl

/-- Pairs that are offered can be removed. -/
theorem Offers.removeAll_eq {pairs : List Pair} {s : Sides} (h : s.Offers pairs) :
    s.removeAll pairs = .ok (s.takeAll pairs) := by
  induction pairs generalizing s with
  | nil => rfl
  | cons p rest ih =>
    obtain ⟨hnew, hold, hrest⟩ := h.of_cons
    rw [removeAll, List.foldlM_cons, remove_eq hnew hold]
    exact ih hrest

end Sides

section Removing

variable {σ : Type} [HasSession σ] {load : String → Run σ Bytes} {l : Limits}

/-- Removes pairs from the sides and logs them. -/
def settleRemoving (s : Sides) (pairs : List Pair) : Run σ Sides := do
  let left ← Run.ofFault (s.removeAll pairs)
  Run.logAll (pairs.map Pair.entry)
  return left

/-- Pairs that are offered are settled without a failure. -/
theorem settleRemoving_eq {s : Sides} {pairs : List Pair} (h : s.Offers pairs) :
    (settleRemoving s pairs : Run σ Sides) = settle s pairs := by
  rw [settleRemoving, h.removeAll_eq]
  rfl

/-- Pairs what is left by content, and settles the pairs in a given way. -/
def reconcileContentsWith (settle : Sides → List Pair → Run σ Sides) (load : String → Run σ Bytes) (l : Limits)
    (s : Sides) : Run σ Sides := do
  if l.excludes s then
    Run.log .warning (skippedText l s)
    return s
  else
    let oldContents ← loadAll load FileChange.oldBlob [] s.deleted
    let newContents ← loadAll load FileChange.newBlob [] s.added
    settle s (similarPairs l.threshold oldContents newContents s)

/-- The changes of a commit with its moves turned into renames, where pairs are settled in a given way. -/
def reconcileWith (settle : Sides → List Pair → Run σ Sides) (load : String → Run σ Bytes) (l : Limits)
    (changes : List FileChange) : Run σ (List FileChange) := do
  let start := Sides.ofChanges changes
  let left ← settle start (exactPairs start)
  if left.isOpen then return (← reconcileContentsWith settle load l left).changes
  else return left.changes

/-- Changes are reconciled by settling pairs in the way that takes them. -/
theorem reconcileWith_settle (changes : List FileChange) :
    reconcileWith settle load l changes = reconcile load l changes := rfl

/-- No removal fails. -/
theorem reconcileWith_settleRemoving (changes : List FileChange) :
    reconcileWith settleRemoving load l changes = reconcile load l changes := by
  rw [← reconcileWith_settle]
  unfold reconcileWith reconcileContentsWith
  simp only [settleRemoving_eq (offers_exactPairs _), settleRemoving_eq (offers_similarPairs _ _ _ _)]

end Removing

/-! ## The order of the result -/

/-- The changes of the sides are listed by path and kind. -/
theorem Sides.pairwise_changes (s : Sides) :
    s.changes.Pairwise fun a b => a.path < b.path ∨ a.path = b.path ∧ a.kind.name ≤ b.kind.name := by
  have hkey : precedes = fun a b => decide (toLex (a.path, a.kind.name) ≤ toLex (b.path, b.kind.name)) := by
    funext a b
    rw [Bool.eq_iff_iff, decide_eq_true_eq, Prod.Lex.toLex_le_toLex]
    simp [precedes]
  have hsorted := pairwise_mergeSort_key (fun c : FileChange => toLex (c.path, c.kind.name))
    (s.settled ++ s.added ++ s.deleted)
  rw [← hkey] at hsorted
  exact hsorted.imp fun hle => Prod.Lex.toLex_le_toLex.1 hle

/-! ## What becomes of each change -/

/-- Whether a change neither adds nor deletes a blob. -/
def isOther (c : FileChange) : Bool := !isAddition c && !isDeletion c

namespace Sides

/-- A rename of a pair neither adds nor deletes a blob. -/
theorem isOther_change (p : Pair) : isOther p.change = true := rfl

/-- The sides hold what their names say, and what is settled neither adds nor deletes a blob. -/
structure Parted (s : Sides) : Prop extends s.Sorted where
  isOther : ∀ c ∈ s.settled, isOther c = true

/-- The sides of a list of changes are parted. -/
theorem parted_ofChanges (changes : List FileChange) : (ofChanges changes).Parted :=
  ⟨sorted_ofChanges changes, fun _ hc => (List.mem_filter.1 hc).2⟩

/-- Taking pairs leaves parted sides. -/
theorem Parted.takeAll {s : Sides} (h : s.Parted) (pairs : List Pair) : (s.takeAll pairs).Parted where
  isAddition c hc := h.isAddition c ((s.added_takeAll_sublist pairs).subset hc)
  isDeletion c hc := h.isDeletion c ((s.deleted_takeAll_sublist pairs).subset hc)
  isOther c hc := by
    rw [settled_takeAll, List.mem_append] at hc
    rcases hc with hc | hc
    · exact h.isOther c hc
    · obtain ⟨p, -, rfl⟩ := List.mem_map.1 hc
      exact isOther_change p

/-- What pairs of equal blobs leave of a list is parted. -/
theorem parted_leftOf (changes : List FileChange) : (leftOf changes).Parted := (parted_ofChanges changes).takeAll _

/-- Some of the changes of the sides are some of each side. -/
theorem filter_changes_perm (s : Sides) (keep : FileChange → Bool) :
    (s.changes.filter keep).Perm (s.settled.filter keep ++ s.added.filter keep ++ s.deleted.filter keep) := by
  rw [← List.filter_append, ← List.filter_append]
  exact s.changes_perm_all.filter keep

/-- Of changes that all fail a condition none is kept. -/
theorem filter_eq_nil {keep : FileChange → Bool} {cs : List FileChange} (h : ∀ c ∈ cs, keep c = false) :
    cs.filter keep = [] := List.filter_eq_nil_iff.2 fun c hc => by simp [h c hc]

variable {s : Sides}

/-- The additions among the changes of parted sides are at their side. -/
theorem Parted.filter_isAddition_perm (h : s.Parted) : (s.changes.filter Renames.isAddition).Perm s.added := by
  have hsettled : ∀ c ∈ s.settled, Renames.isAddition c = false := fun c hc => by
    simpa using ((Bool.and_eq_true _ _).mp (h.isOther c hc)).1
  have hdeleted : ∀ c ∈ s.deleted, Renames.isAddition c = false := fun c hc =>
    isAddition_of_isDeletion (h.isDeletion c hc)
  have hkept := s.filter_changes_perm Renames.isAddition
  rwa [filter_eq_nil hsettled, List.filter_eq_self.2 h.isAddition, filter_eq_nil hdeleted, List.append_nil,
    List.nil_append] at hkept

/-- The deletions among the changes of parted sides are at their side. -/
theorem Parted.filter_isDeletion_perm (h : s.Parted) : (s.changes.filter Renames.isDeletion).Perm s.deleted := by
  have hsettled : ∀ c ∈ s.settled, Renames.isDeletion c = false := fun c hc => by
    simpa using ((Bool.and_eq_true _ _).mp (h.isOther c hc)).2
  have hadded : ∀ c ∈ s.added, Renames.isDeletion c = false := fun c hc => isDeletion_of_isAddition (h.isAddition c hc)
  have hkept := s.filter_changes_perm Renames.isDeletion
  rwa [filter_eq_nil hsettled, filter_eq_nil hadded, List.filter_eq_self.2 h.isDeletion, List.nil_append,
    List.nil_append] at hkept

/-- The other changes of parted sides are settled. -/
theorem Parted.filter_settled_perm (h : s.Parted) {keep : FileChange → Bool}
    (hkeep : ∀ c, keep c = true → Renames.isOther c = true) : (s.changes.filter keep).Perm (s.settled.filter keep) := by
  have hadded : ∀ c ∈ s.added, keep c = false := fun c hc => Bool.eq_false_iff.2 fun hkept => by
    simpa [Renames.isOther, h.isAddition c hc] using hkeep c hkept
  have hdeleted : ∀ c ∈ s.deleted, keep c = false := fun c hc => Bool.eq_false_iff.2 fun hkept => by
    simpa [Renames.isOther, h.isDeletion c hc] using hkeep c hkept
  have hkept := s.filter_changes_perm keep
  rwa [filter_eq_nil hadded, filter_eq_nil hdeleted, List.append_nil, List.append_nil] at hkept

/-- What is settled of a list at first are its other changes. -/
theorem filter_settled_ofChanges {keep : FileChange → Bool} (hkeep : ∀ c, keep c = true → Renames.isOther c = true)
    (changes : List FileChange) : (ofChanges changes).settled.filter keep = changes.filter keep := by
  rw [ofChanges, List.filter_filter]
  refine List.filter_congr fun c _ => ?_
  cases hc : keep c with
  | false => rfl
  | true => exact hkeep c hc

end Sides

/-- A result of pairing has of every change what the list had: some of the additions and of the deletions have become
renames, and those that are left and all other changes are as they were. -/
structure Balanced (changes result renames : List FileChange) : Prop where
  sorted : result.Pairwise fun a b => a.path < b.path ∨ a.path = b.path ∧ a.kind.name ≤ b.kind.name
  isRename : ∀ c ∈ renames, c.kind = .renamed
  others : (result.filter isOther).Perm (changes.filter isOther ++ renames)
  additions : ((changes.filter isAddition).map fun c => (c.path, c.newBlob)).Perm
    ((result.filter isAddition ++ renames).map fun c => (c.path, c.newBlob))
  deletions : ((changes.filter isDeletion).map fun c => (some c.path, c.oldBlob)).Perm
    ((result.filter isDeletion).map (fun c => (some c.path, c.oldBlob)) ++ renames.map fun c => (c.oldPath, c.oldBlob))
  left_additions : (result.filter isAddition).Subperm (changes.filter isAddition)
  left_deletions : (result.filter isDeletion).Subperm (changes.filter isDeletion)

/-- Taking pairs that are offered is balanced by their renames. -/
theorem balanced_of_offers {changes : List FileChange} {pairs : List Pair}
    (h : (Sides.ofChanges changes).Offers pairs) :
    Balanced changes ((Sides.ofChanges changes).takeAll pairs).changes (pairs.map Pair.change) := by
  have hparted := (Sides.parted_ofChanges changes).takeAll pairs
  refine ⟨Sides.pairwise_changes _, fun c hc => ?_, ?_, ?_, ?_,
    hparted.filter_isAddition_perm.subperm.trans (Sides.added_takeAll_sublist _ _).subperm,
    hparted.filter_isDeletion_perm.subperm.trans (Sides.deleted_takeAll_sublist _ _).subperm⟩
  · obtain ⟨p, -, rfl⟩ := List.mem_map.1 hc
    rfl
  · have hsettled := hparted.filter_settled_perm fun _ hc => hc
    rwa [List.filter_eq_self.2 hparted.isOther, Sides.settled_takeAll] at hsettled
  · have hsplit := (h.added_perm.trans (hparted.filter_isAddition_perm.symm.append_right _)).map fun c =>
      (c.path, c.newBlob)
    rw [List.map_append, List.map_map] at hsplit ⊢
    exact hsplit
  · have hsplit := (h.deleted_perm.trans (hparted.filter_isDeletion_perm.symm.append_right _)).map fun c =>
      (some c.path, c.oldBlob)
    rw [List.map_append, List.map_map] at hsplit
    rw [List.map_map]
    exact hsplit

section Reconcile

variable {σ : Type} [HasSession σ] {load : String → Run σ Bytes}

/-- Reconciling changes loses and invents nothing, and no removal in it fails. If every content can be loaded, there is
a result; it is listed by path and kind and balances the changes. -/
theorem reconcile_balanced (hload : ∀ id, (load id).IsTotal) (l : Limits) (changes : List FileChange) :
    reconcileWith settleRemoving load l changes = reconcile load l changes ∧
      ∀ t, ∃ result t' renames, (reconcileWith settleRemoving load l changes).Returns t result t' ∧
        Balanced changes result renames := by
  have hsame : reconcileWith settleRemoving load l changes = reconcile load l changes :=
    reconcileWith_settleRemoving changes
  refine ⟨hsame, fun t => ?_⟩
  obtain ⟨result, t', hreturns⟩ := isTotal_reconcile hload changes t
  obtain ⟨pairs, hpairs, rfl⟩ := exists_offers_of_returns hreturns
  have hbalanced : Balanced changes ((leftOf changes).takeAll pairs).changes
      ((exactPairs (Sides.ofChanges changes) ++ pairs).map Pair.change) := by
    rw [leftOf, ← Sides.takeAll_append]
    exact balanced_of_offers ((offers_exactPairs _).append hpairs)
  exact ⟨_, t', _, hsame ▸ hreturns, hbalanced⟩

/-- Of two equal additions and three equal deletions of one blob, one of each is paired by its blob, since all additions
are at one path, and one more of each by its content. -/
theorem reconcile_balanced_repeated :
    let moved := [⟨.added, "new", none, none, some "b", .zero⟩, ⟨.deleted, "old", none, some "b", none, .zero⟩,
      ⟨.added, "new", none, none, some "b", .zero⟩, ⟨.deleted, "old", none, some "b", none, .zero⟩,
      ⟨.deleted, "old", none, some "b", none, .zero⟩, ⟨.modified, "old", none, some "b", some "c", .zero⟩]
    (∀ id : String, Run.IsTotal (pure id.toUTF8.toList : Run Session Bytes)) ∧
      reconcileWith settleRemoving (fun id => (pure id.toUTF8.toList : Run Session Bytes)) {} moved =
          reconcile (fun id => pure id.toUTF8.toList) {} moved ∧
        ∀ t, ∃ result t' renames,
          (reconcileWith settleRemoving (fun id => (pure id.toUTF8.toList : Run Session Bytes)) {} moved).Returns t result
              t' ∧ Balanced moved result renames :=
  ⟨fun _ => Run.isTotal_pure _, reconcile_balanced (fun _ => Run.isTotal_pure _) {} _⟩

end Reconcile

end Hotspots.Renames
