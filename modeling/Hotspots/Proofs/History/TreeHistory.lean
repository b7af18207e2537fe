import Hotspots.Proofs.History.Pairing
import Hotspots.Proofs.History.RawDiff
import Mathlib.Data.List.Dedup

/-!
# Histories of trees

A revision lists the paths at which its tree differs from the tree before. Its commit has the changes that
the lines of these differences are read as, after renames were found among them. Finding renames moves no
file: the paths that the changes of a commit fill and clear are those at which a file comes to be, stays or
ceases to be between the two trees.
-/

namespace Hotspots

variable {f : ObjectFormat}

/-- A commit as the repository shows it: its tree, and the paths at which the log says that this tree differs
from the tree before, in the order of the log. -/
structure Revision (f : ObjectFormat) where
  sha : String
  parents : List String
  timestamp : Int
  tree : Tree f
  listed : List String

namespace Revision

/-- The listed paths are those at which the tree differs from the tree before, each listed once. -/
structure Follows (before : Tree f) (r : Revision f) : Prop where
  nodup : r.listed.Nodup
  mem_listed : ∀ path, path ∈ r.listed ↔ before.node? path ≠ r.tree.node? path

/-- The paths at which two trees differ, in the order of the trees. -/
def differing (before after : Tree f) : List String :=
  ((before.entries ++ after.entries).map Prod.fst).dedup.filter fun path =>
    before.node? path ≠ after.node? path

/-- A revision that lists the paths at which the trees differ follows the tree before, whatever the trees. -/
theorem follows_of_listed_eq {before : Tree f} {r : Revision f} (h : r.listed = differing before r.tree) :
    r.Follows before where
  nodup := by
    rw [h]
    exact (List.nodup_dedup _).filter _
  mem_listed path := by
    rw [h, differing, List.mem_filter, List.mem_dedup, List.map_append, List.mem_append, decide_eq_true_eq]
    refine and_iff_right_of_imp fun hne => ?_
    by_contra hout
    rw [not_or] at hout
    refine hne ?_
    rw [Tree.node?, Tree.node?, Record.get?_eq_none_iff.2 hout.1, Record.get?_eq_none_iff.2 hout.2]

/-- The differences of a revision from the tree before. -/
def differences (before : Tree f) (r : Revision f) : List (Difference f) :=
  r.listed.map fun path => ⟨path, before.node? path, r.tree.node? path⟩

/-- The changes of a revision as they are listed, without renames. -/
def changes (before : Tree f) (r : Revision f) : List FileChange :=
  (r.differences before).filterMap Difference.change?

/-- The commit of a revision: the lines of its differences are read, and renames are found. -/
def commit {σ : Type} [HasSession σ] (load : String → Run σ Bytes) (l : Renames.Limits) (before : Tree f)
    (r : Revision f) : Run σ Commit := do
  let listed ← RawLog.changesOfLines ((r.differences before).map Difference.line)
  let changes ← Renames.reconcile load l listed
  return { sha := r.sha, timestamp := r.timestamp, parents := r.parents, changes := changes }

/-- The commits of a history, oldest first, after a tree. -/
def commits {σ : Type} [HasSession σ] (load : String → Run σ Bytes) (l : Renames.Limits) :
    Tree f → List (Revision f) → Run σ (List Commit)
  | _, [] => return []
  | before, r :: rest => do
    let c ← r.commit load l before
    let more ← commits load l r.tree rest
    return c :: more

/-- Each revision of a history follows the one before, and the first one follows a tree. -/
def IsHistory : Tree f → List (Revision f) → Prop
  | _, [] => True
  | before, r :: rest => r.Follows before ∧ IsHistory r.tree rest

/-- The tree at the end of a history. -/
def lastTree : Tree f → List (Revision f) → Tree f
  | before, [] => before
  | _, r :: rest => lastTree r.tree rest

end Revision

namespace Revision

/-- The commits of a history after a tree: each has the changes of its revision, after pairs were taken from
them. -/
inductive Replayed : Tree f → List (Revision f) → List Commit → Prop where
  | nil (before : Tree f) : Replayed before [] []
  | cons {before : Tree f} {r : Revision f} {c : Commit} {rest : List (Revision f)} {more : List Commit}
      (hfollows : r.Follows before) (hchanges : Renames.Reconciled (r.changes before) c.changes)
      (hsha : c.sha = r.sha) (hparents : c.parents = r.parents) (hrest : Replayed r.tree rest more) :
      Replayed before (r :: rest) (c :: more)

/-- The lines of the differences of a revision are read as its changes. -/
theorem Follows.returns_changesOfLines {σ : Type} [HasSession σ] {before : Tree f} {r : Revision f}
    (h : r.Follows before) (s : σ) :
    ∃ s', (RawLog.changesOfLines ((r.differences before).map Difference.line)).Returns s
      (r.changes before) s' := by
  refine Difference.returns_changesOfLines ?_ ?_ s
  · intro d hd
    obtain ⟨path, hpath, rfl⟩ := List.mem_map.1 hd
    exact (h.mem_listed path).1 hpath
  · intro d hd
    obtain ⟨path, hpath, rfl⟩ := List.mem_map.1 hd
    rintro rfl
    refine (h.mem_listed "").1 hpath ?_
    rw [Tree.node?_empty, Tree.node?_empty]

/-- A commit is read and its changes are reconciled if every content can be loaded. -/
theorem Follows.returns_commit {σ : Type} [HasSession σ] {load : String → Run σ Bytes}
    (hload : ∀ id, (load id).IsTotal) (l : Renames.Limits) {before : Tree f} {r : Revision f} (h : r.Follows before)
    (s : σ) : ∃ changes s₁ s₂, (Renames.reconcile load l (r.changes before)).Returns s₁ changes s₂ ∧
      (r.commit load l before).Returns s ⟨r.sha, r.timestamp, r.parents, changes⟩ s₂ := by
  obtain ⟨s₁, hread⟩ := h.returns_changesOfLines s
  obtain ⟨changes, s₂, hreconcile⟩ := Renames.isTotal_reconcile (l := l) hload (r.changes before) s₁
  exact ⟨changes, s₁, s₂, hreconcile, Run.returns_bind.2 ⟨_, s₁, hread, Run.returns_bind.2 ⟨changes, s₂, hreconcile,
    Run.returns_pure.2 ⟨rfl, rfl⟩⟩⟩⟩

/-- The commits of a history are read and reconciled if every content can be loaded. -/
theorem returns_commits {σ : Type} [HasSession σ] {load : String → Run σ Bytes}
    (hload : ∀ id, (load id).IsTotal) (l : Renames.Limits) {before : Tree f} {revisions : List (Revision f)}
    (hhistory : IsHistory before revisions) (s : σ) :
    ∃ commits s', (Revision.commits load l before revisions).Returns s commits s' ∧
      Replayed before revisions commits := by
  induction revisions generalizing before s with
  | nil => exact ⟨[], s, Run.returns_pure.2 ⟨rfl, rfl⟩, .nil before⟩
  | cons r rest ih =>
    obtain ⟨hfollows, hrest⟩ := hhistory
    obtain ⟨changes, s₁, s₂, hreconcile, hcommit⟩ := hfollows.returns_commit hload l s
    obtain ⟨commits, s₃, hcommits, hreplayed⟩ := ih hrest s₂
    have hchanges : Renames.Reconciled (r.changes before) changes := Renames.reconciled_of_returns hreconcile
    refine ⟨⟨r.sha, r.timestamp, r.parents, changes⟩ :: commits, s₃, ?_, .cons hfollows hchanges rfl rfl hreplayed⟩
    exact Run.returns_bind.2 ⟨_, s₂, hcommit, Run.returns_bind.2 ⟨commits, s₃, hcommits,
      Run.returns_pure.2 ⟨rfl, rfl⟩⟩⟩

/-- The beginning of a replayed history is one. -/
theorem Replayed.take {before : Tree f} {revisions : List (Revision f)} {commits : List Commit}
    (h : Replayed before revisions commits) (i : Nat) :
    Replayed before (revisions.take i) (commits.take i) := by
  induction h generalizing i with
  | nil before => rw [List.take_nil, List.take_nil]; exact .nil before
  | cons hfollows hchanges hsha hparents _ ih =>
    cases i with
    | zero => exact .nil _
    | succ i => exact .cons hfollows hchanges hsha hparents (ih i)

end Revision

end Hotspots
