import Hotspots.Proofs.History.OpenPaths
import Hotspots.Proofs.History.TreeHistory

/-!
# What commits fill and clear

Finding renames moves no file: the paths that the changes of a commit fill and clear are those at which a
blob stays or comes to be, and ceases to be, between the tree before and the tree of its revision. No path
is both filled and cleared, and every path is filled at most once.
-/

namespace Hotspots

variable {f : ObjectFormat}

namespace FileChange

/-- The paths at which a change leaves a file. -/
def filled (c : FileChange) : List String := if c.kind = .deleted then [] else [c.path]

/-- The paths at which a change leaves a file where there was none. -/
def arrived (c : FileChange) : List String := if c.kind = .added ∨ c.kind = .renamed then [c.path] else []

/-- The paths from which a change takes the file away. -/
def cleared (c : FileChange) : List String :=
  if c.kind = .deleted then [c.path] else if c.kind = .renamed then c.oldPath.toList else []

/-- A change fills the paths at which it leaves a file. -/
theorem mem_filled {c : FileChange} {path : String} : path ∈ c.filled ↔ c.Fills path := by
  unfold filled Fills
  split
  · next h => simp [h]
  · next h => simp [h, eq_comm]

/-- A change clears the paths from which it takes the file away. -/
theorem mem_cleared {c : FileChange} {path : String} (hpath : path ≠ "") :
    path ∈ c.cleared ↔ c.Clears path := by
  unfold cleared Clears
  split
  · next h => simp [h, eq_comm]
  · next h =>
    split
    · next hrenamed => simp [hrenamed, hpath]
    · next hrenamed => simp [h, hrenamed]

end FileChange


namespace Difference

open TreeNode (blobOf)

/-- A quantity that is the path of the change for some differences, and nothing for the others. -/
theorem flatMap_change? {quantity : FileChange → List String} {holds : Difference f → Bool}
    (hquantity : ∀ d : Difference f,
      d.change?.toList.flatMap quantity = if holds d then [d.path] else []) (ds : List (Difference f)) :
    (ds.filterMap change?).flatMap quantity = (ds.filter holds).map path := by
  induction ds with
  | nil => rfl
  | cons d rest ih =>
    have hfirst := hquantity d
    rw [List.filterMap_cons, List.filter_cons]
    cases hd : d.change? <;> cases hh : holds d <;> simp_all

/-- The changes of differences fill the paths that have a blob now. -/
theorem flatMap_filled (ds : List (Difference f)) :
    (ds.filterMap change?).flatMap FileChange.filled =
      (ds.filter fun d => (blobOf d.new).isSome).map path := by
  refine flatMap_change? (fun d => ?_) ds
  unfold change?
  cases blobOf d.old <;> cases blobOf d.new <;> rfl

/-- Files arrive at the paths that have a blob now and had none. -/
theorem flatMap_arrived (ds : List (Difference f)) :
    (ds.filterMap change?).flatMap FileChange.arrived =
      (ds.filter fun d => (blobOf d.old).isNone && (blobOf d.new).isSome).map path := by
  refine flatMap_change? (fun d => ?_) ds
  unfold change?
  cases blobOf d.old <;> cases blobOf d.new <;> rfl

/-- The changes of differences clear the paths that had a blob and have none now. -/
theorem flatMap_cleared (ds : List (Difference f)) :
    (ds.filterMap change?).flatMap FileChange.cleared =
      (ds.filter fun d => (blobOf d.old).isSome && (blobOf d.new).isNone).map path := by
  refine flatMap_change? (fun d => ?_) ds
  unfold change?
  cases blobOf d.old <;> cases blobOf d.new <;> rfl

end Difference

namespace Renames

/-- A rename leaves a file where its addition did. -/
theorem conserved_filled : Sides.Conserved FileChange.filled := by
  intro p hnew hold
  simp only [isAddition, isDeletion, Bool.and_eq_true, beq_iff_eq] at hnew hold
  simp [FileChange.filled, Pair.change, hnew.1, hold.1]

/-- A rename brings a file where its addition did. -/
theorem conserved_arrived : Sides.Conserved FileChange.arrived := by
  intro p hnew hold
  simp only [isAddition, isDeletion, Bool.and_eq_true, beq_iff_eq] at hnew hold
  simp [FileChange.arrived, Pair.change, hnew.1, hold.1]

/-- A rename takes a file away from where its deletion did. -/
theorem conserved_cleared : Sides.Conserved FileChange.cleared := by
  intro p hnew hold
  simp only [isAddition, isDeletion, Bool.and_eq_true, beq_iff_eq] at hnew hold
  simp [FileChange.cleared, Pair.change, hnew.1, hold.1]

end Renames

namespace Revision

open TreeNode (blobOf)

variable {before : Tree f} {r : Revision f} {changes : List FileChange}

/-- The paths of some differences of a revision are some of the listed paths. -/
theorem map_path_filter_differences (holds : Difference f → Bool) :
    ((r.differences before).filter holds).map Difference.path =
      r.listed.filter fun path => holds ⟨path, before.node? path, r.tree.node? path⟩ := by
  rw [differences, List.filter_map, List.map_map]
  exact List.map_id _

/-- Reconciled changes fill the listed paths that are tracked now, each of them once. -/
theorem filled_perm (h : Renames.Reconciled (r.changes before) changes) :
    (changes.flatMap FileChange.filled).Perm
      (r.listed.filter fun path => (blobOf (r.tree.node? path)).isSome) := by
  have hperm := h.flatMap_perm Renames.conserved_filled
  rwa [Revision.changes, Difference.flatMap_filled, map_path_filter_differences] at hperm

/-- Files arrive at the listed paths that are tracked now and were not. -/
theorem arrived_perm (h : Renames.Reconciled (r.changes before) changes) :
    (changes.flatMap FileChange.arrived).Perm
      (r.listed.filter fun path =>
        (blobOf (before.node? path)).isNone && (blobOf (r.tree.node? path)).isSome) := by
  have hperm := h.flatMap_perm Renames.conserved_arrived
  rwa [Revision.changes, Difference.flatMap_arrived, map_path_filter_differences] at hperm

/-- Reconciled changes clear the listed paths that were tracked and are not tracked now. -/
theorem cleared_perm (h : Renames.Reconciled (r.changes before) changes) :
    (changes.flatMap FileChange.cleared).Perm
      (r.listed.filter fun path =>
        (blobOf (before.node? path)).isSome && (blobOf (r.tree.node? path)).isNone) := by
  have hperm := h.flatMap_perm Renames.conserved_cleared
  rwa [Revision.changes, Difference.flatMap_cleared, map_path_filter_differences] at hperm

/-- A path is filled by a reconciled change when it is listed and tracked now. -/
theorem exists_fills_iff (h : Renames.Reconciled (r.changes before) changes) {path : String} :
    (∃ c ∈ changes, c.Fills path) ↔ path ∈ r.listed ∧ path ∈ r.tree.tracked := by
  have hmem := (filled_perm h).mem_iff (a := path)
  rw [List.mem_flatMap, List.mem_filter, ← Tree.mem_tracked] at hmem
  rw [← hmem]
  simp only [FileChange.mem_filled]

/-- A path is cleared by a reconciled change when it is listed, was tracked and is not tracked now. -/
theorem exists_clears_iff (h : Renames.Reconciled (r.changes before) changes) {path : String}
    (hpath : path ≠ "") :
    (∃ c ∈ changes, c.Clears path) ↔
      path ∈ r.listed ∧ path ∈ before.tracked ∧ path ∉ r.tree.tracked := by
  have hmem := (cleared_perm h).mem_iff (a := path)
  rw [List.mem_flatMap, List.mem_filter, Bool.and_eq_true, Option.isNone_iff_eq_none,
    ← Option.not_isSome_iff_eq_none, ← Tree.mem_tracked, ← Tree.mem_tracked] at hmem
  rw [← hmem]
  simp only [FileChange.mem_cleared hpath]

/-- No path is both filled and cleared by reconciled changes. -/
theorem not_clears_of_fills (h : Renames.Reconciled (r.changes before) changes) :
    ∀ c ∈ changes, ∀ d ∈ changes, ∀ path, c.Fills path → ¬d.Clears path := by
  intro c hc d hd path hfills hclears
  have htracked := ((exists_fills_iff h).1 ⟨c, hc, hfills⟩).2
  exact ((exists_clears_iff h (Tree.ne_empty_of_mem_tracked htracked)).1 ⟨d, hd, hclears⟩).2.2 htracked

/-- A path that is not listed is tracked now if it was. -/
theorem Follows.mem_tracked_iff (h : r.Follows before) {path : String} (hpath : path ∉ r.listed) :
    path ∈ r.tree.tracked ↔ path ∈ before.tracked := by
  rw [h.mem_listed, not_not] at hpath
  rw [Tree.mem_tracked, Tree.mem_tracked, hpath]

end Revision

end Hotspots
