import Hotspots.Scan.ClassMetrics
import Mathlib.Algebra.Order.BigOperators.Group.List
import Mathlib.Algebra.Order.Group.Nat
import Mathlib.Algebra.Order.Ring.Int
import Mathlib.Data.List.Perm.Subperm

/-!
# Measures and the size of a tree

The size of a tree is the number of its nodes, with what each of them adds to the complexity of a function. A class that
is defined anywhere in a tree has a weighted method count and an access to foreign data of at most this size
(`measures_le_size`).
-/

namespace Hotspots

open Source (FunctionHead)

namespace Source.Tree

/-- The number of nodes, with what they add to the complexity of the functions around them. -/
def size (t : Tree) : Nat := (t.nodes.map fun node => 1 + node.weight).sum

/-- The size of several trees. -/
def sizeAll (ts : List Tree) : Nat := ((nodesAll ts).map fun node => 1 + node.weight).sum

/-- The nodes of a tree are the tree itself and the nodes of its children. -/
theorem nodes_eq (t : Tree) : t.nodes = t :: nodesAll t.children := by
  cases t
  rw [nodes, children]

/-- The children of a tree have less than its size. -/
theorem sizeAll_children_le (t : Tree) : sizeAll t.children ≤ t.size := by
  rw [size, nodes_eq, List.map_cons, List.sum_cons]
  exact Nat.le_add_left _ _

/-- Trees have the sizes of each of them. -/
theorem sizeAll_cons (t : Tree) (ts : List Tree) : sizeAll (t :: ts) = t.size + sizeAll ts := by
  rw [sizeAll, nodesAll, List.map_append, List.sum_append_nat]
  rfl

mutual

/-- The nodes of a part of a tree are nodes of the tree. -/
theorem nodes_sublist_of_mem {s t : Tree} (h : s ∈ t.nodes) : s.nodes.Sublist t.nodes := by
  cases t with
  | node l cs =>
    rw [nodes] at h
    rcases List.mem_cons.1 h with rfl | hpart
    · exact List.Sublist.refl _
    · rw [nodes.eq_def (node l cs)]
      exact (nodes_sublist_of_mem_nodesAll hpart).cons _

/-- The nodes of a part of one of several trees are nodes of these. -/
theorem nodes_sublist_of_mem_nodesAll {s : Tree} {ts : List Tree} (h : s ∈ nodesAll ts) :
    s.nodes.Sublist (nodesAll ts) := by
  cases ts with
  | nil =>
    rw [nodesAll] at h
    cases h
  | cons t rest =>
    rw [nodesAll] at h ⊢
    rcases List.mem_append.1 h with hfirst | hrest
    · exact (nodes_sublist_of_mem hfirst).trans (List.sublist_append_left _ _)
    · exact (nodes_sublist_of_mem_nodesAll hrest).trans (List.sublist_append_right _ _)

end

/-- A part of a tree has at most its size. -/
theorem size_le_of_mem {s t : Tree} (h : s ∈ t.nodes) : s.size ≤ t.size :=
  ((nodes_sublist_of_mem h).map _).sum_le_sum fun _ _ => Nat.zero_le _

/-- The complexity of a function is at most its size. -/
theorem complexity_le_size (t : Tree) : t.complexity ≤ t.size := by
  have hwalk : (t.walk.map weight).foldr (· + ·) 0 = (t.nodes.map weight).sum := by
    rw [← List.sum_eq_foldr]
    exact ((walk_perm_nodes t).map weight).sum_nat
  have hsum : ∀ ts : List Tree, (ts.map fun node => 1 + node.weight).sum = ts.length + (ts.map weight).sum := by
    intro ts
    induction ts with
    | nil => rfl
    | cons t rest ih =>
      simp only [List.map_cons, List.sum_cons, List.length_cons, ih]
      omega
  have hnode : 0 < t.nodes.length := by
    rw [nodes_eq]
    exact Nat.succ_pos _
  rw [complexity, hwalk, size, hsum]
  omega

/-- A tree has no more nodes than its size. -/
theorem length_nodes_le (t : Tree) : t.nodes.length ≤ t.size := by
  have hlength : t.nodes.length = (t.nodes.map fun _ => 1).sum := by simp
  rw [hlength]
  exact List.sum_le_sum fun node _ => Nat.le_add_right 1 _

end Source.Tree

namespace Access

mutual

/-- No node is more than one access. -/
theorem length_inTree_le (called : Bool) (t : Source.Tree) : (inTree called t).length ≤ t.nodes.length := by
  cases t with
  | node l cs =>
    have hnode : (ofNode called l cs).length ≤ 1 := by
      unfold ofNode
      split <;> simp
    have hchildren := length_inChildren_le (l == .call) cs
    rw [inTree, Source.Tree.nodes, List.length_append, List.length_cons]
    omega

/-- No node of several trees is more than one access. -/
theorem length_inChildren_le (call : Bool) (ts : List Source.Tree) :
    (inChildren call ts).length ≤ (Source.Tree.nodesAll ts).length := by
  cases ts with
  | nil => exact Nat.zero_le _
  | cons t rest =>
    rw [inChildren, Source.Tree.nodesAll, List.length_append, List.length_append]
    exact Nat.add_le_add (length_inTree_le call t) (length_inChildren_le false rest)

end

end Access

namespace ClassMetrics

/-- What is at most the size of each method adds up to at most the size of the class. -/
theorem sum_methods_le {amount : FunctionHead × Source.Tree → Nat} (h : ∀ m, amount m ≤ m.2.size) (t : Source.Tree) :
    ((methods t).map amount).sum ≤ t.size := by
  have hall : ∀ ts : List Source.Tree, ((ts.filterMap fun child =>
      child.functionHead?.map fun head => (head, child)).map amount).sum ≤ Source.Tree.sizeAll ts := by
    intro ts
    induction ts with
    | nil => exact Nat.zero_le _
    | cons child rest ih =>
      rw [Source.Tree.sizeAll_cons, List.filterMap_cons]
      cases child.functionHead? with
      | none => exact Nat.le_add_left_of_le ih
      | some head =>
        rw [Option.map_some, List.map_cons, List.sum_cons]
        exact Nat.add_le_add (h (head, child)) ih
  exact Nat.le_trans (hall t.children) (Source.Tree.sizeAll_children_le t)

/-- A list without its repetitions has no repetitions. -/
theorem nodup_eraseDups {κ : Type} [BEq κ] [LawfulBEq κ] (keys : List κ) : keys.eraseDups.Nodup := by
  cases keys with
  | nil => exact List.nodup_nil
  | cons k rest =>
    rw [List.eraseDups_cons, List.nodup_cons, List.mem_eraseDups]
    exact ⟨by simp, nodup_eraseDups _⟩
termination_by keys.length
decreasing_by exact Nat.lt_succ_of_le (List.length_filter_le (fun l => !l == k) rest)

/-- A class has at most the weighted method count and the foreign data that fit in its tree. -/
theorem measures_le_size (names : List String) (name : String) (line : Nat) (t : Source.Tree) :
    (0 ≤ (ofClass names name line t).wmc ∧ (ofClass names name line t).wmc ≤ t.size) ∧
      0 ≤ (ofClass names name line t).atfd ∧ (ofClass names name line t).atfd ≤ t.size := by
  have hwmc : ((methods t).map fun m => m.2.complexity).foldr (· + ·) 0 ≤ t.size := by
    rw [← List.sum_eq_foldr]
    exact sum_methods_le (fun m => m.2.complexity_le_size) t
  have hatfd : ((methods t).flatMap (foreignFields (name :: names))).eraseDups.length ≤ t.size := by
    refine Nat.le_trans ((nodup_eraseDups _).subperm fun _ => List.mem_eraseDups.1).length_le ?_
    rw [List.length_flatMap]
    refine sum_methods_le (fun m => ?_) t
    rw [foreignFields, List.length_map]
    calc ((Access.inTree false m.2).filter (isForeign (name :: names) m)).length
        ≤ (Access.inTree false m.2).length := List.length_filter_le _ _
      _ ≤ m.2.nodes.length := Access.length_inTree_le false m.2
      _ ≤ m.2.size := m.2.length_nodes_le
  exact ⟨⟨Int.natCast_nonneg _, Int.ofNat_le.2 hwmc⟩, Int.natCast_nonneg _, Int.ofNat_le.2 hatfd⟩

end ClassMetrics

end Hotspots
