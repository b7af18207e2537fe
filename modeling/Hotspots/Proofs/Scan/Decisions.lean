import Hotspots.Proofs.Scan.TreePlaces
import Hotspots.Proofs.Scan.TreeSize
import Mathlib.Algebra.BigOperators.Group.List.Basic
import Mathlib.Logic.Function.Iterate

/-!
# Complexity as a sum over the tree

The complexity of a function is counted by a walk with a queue: the first node of the queue is looked at, and its
children go to the end. The walk looks at the nodes of the tree level by level, comes to an end after as many steps as
the tree has nodes (`QueuedWalk.queue_steps_eq_nil_iff`), and has then added up the decisions in the tree, which are
defined by recursion on the tree. A sum over a tree changes with one of its parts by as much as the part does
(`Tree.decisions_replaceAt`), and so does the weighted method count of a class
(`ClassMetrics.wmc_adds_up_decisions`).
-/

namespace Hotspots

open Source (Tree Label FunctionHead)

namespace Source

/-- What a construct with a number of operands decides by itself. -/
def Label.decisions : Label → Nat → Nat
  | .branch _, _ => 1
  | .boolOp, operands => operands - 1
  | .clause filters, _ => 1 + filters
  | _, _ => 0

namespace Tree

mutual

/-- The decisions in a tree: those at its root and those in its children. -/
def decisions : Tree → Nat
  | node label cs => label.decisions cs.length + decisionsAll cs

/-- The decisions in several trees. -/
def decisionsAll : List Tree → Nat
  | [] => 0
  | t :: rest => t.decisions + decisionsAll rest

end

variable {t old new child : Tree} {ts us : List Tree} {i : Nat} {place : List Nat}

/-- What a node adds to a complexity is what it decides by itself. -/
theorem weight_node (label : Label) (cs : List Tree) : (node label cs).weight = label.decisions cs.length := by
  cases label <;> rfl

mutual

/-- The decisions in a tree are what its nodes add. -/
theorem sum_weight_nodes (t : Tree) : (t.nodes.map weight).sum = t.decisions := by
  cases t with
  | node label cs => simp only [nodes, List.map_cons, List.sum_cons, weight_node, sum_weight_nodesAll cs, decisions]

/-- The decisions in several trees are what their nodes add. -/
theorem sum_weight_nodesAll (ts : List Tree) : ((nodesAll ts).map weight).sum = decisionsAll ts := by
  cases ts with
  | nil => simp [nodesAll, decisionsAll]
  | cons t rest =>
    simp only [nodesAll, List.map_append, List.sum_append, sum_weight_nodes t, sum_weight_nodesAll rest, decisionsAll]

end

/-- The complexity of a function is one plus the decisions in it. -/
theorem complexity_eq (t : Tree) : t.complexity = 1 + t.decisions := by
  rw [complexity, ← List.sum_eq_foldr, ((walk_perm_nodes t).map weight).sum_eq, sum_weight_nodes]

/-! ## Other parts -/

/-- The decisions in several trees add up. -/
theorem decisionsAll_eq_sum (ts : List Tree) : decisionsAll ts = (ts.map decisions).sum := by
  induction ts with
  | nil => rfl
  | cons t rest ih => rw [decisionsAll, ih, List.map_cons, List.sum_cons]

/-- Another tree among several changes a sum over them by as much as its own summand. -/
theorem sum_modify (amount : Tree → Nat) (f : Tree → Tree) (h : ts[i]? = some child) :
    ((ts.modify i f).map amount).sum + amount child = (ts.map amount).sum + amount (f child) := by
  induction ts generalizing i with
  | nil => simp at h
  | cons t rest ih =>
    cases i with
    | zero =>
      obtain rfl : t = child := by simpa using h
      simp only [List.modify_zero_cons, List.map_cons, List.sum_cons]
      omega
    | succ i =>
      have hrest := ih (by simpa using h)
      simp only [List.modify_succ_cons, List.map_cons, List.sum_cons]
      omega

/-- Another part changes the decisions in a tree by as much as its own. -/
theorem decisions_replaceAt (new : Tree) (h : t.at? place = some old) :
    (replaceAt new place t).decisions + old.decisions = t.decisions + new.decisions := by
  induction place generalizing t with
  | nil =>
    obtain rfl : t = old := by simpa using h
    rw [replaceAt_nil, Nat.add_comm]
  | cons i place ih =>
    obtain ⟨child, hchild, hpart⟩ := at?_cons_eq_some_iff.1 h
    have hinside := ih hpart
    have hothers := sum_modify decisions (replaceAt new place) hchild
    cases t with
    | node label cs =>
      -- The root keeps its construct and the number of its operands, hence what it decides by itself.
      simp only [replaceAt, Tree.label, children, decisions, decisionsAll_eq_sum, List.length_modify] at hothers ⊢
      omega

/-- Whether a tree is a function is decided by the construct at its root. -/
theorem isFunction_eq (t : Tree) : t.isFunction = (node t.label []).isFunction := by
  cases t with
  | node label cs => cases label <;> rfl

/-- A replacement in a function leaves a function, if it does not replace the whole by something else. -/
theorem isFunction_replaceAt (h : t.isFunction = true) (hroot : place = [] → new.isFunction = true) :
    (replaceAt new place t).isFunction = true := by
  cases place with
  | nil => exact hroot rfl
  | cons i place => rwa [isFunction_eq, label_replaceAt_cons, ← isFunction_eq]

end Tree

/-- A walk with a queue: the nodes that wait, those that were looked at, and the complexity counted so far. -/
structure QueuedWalk where
  queue : List Tree
  visited : List Tree
  complexity : Nat

namespace QueuedWalk

variable {t : Tree} {ts us : List Tree} {w : QueuedWalk} {bound n : Nat}

/-- The walk before the first node, where one path is counted. -/
def start (t : Tree) : QueuedWalk := ⟨[t], [], 1⟩

/-- Looks at the first node of the queue and puts its children at the end. -/
def step (w : QueuedWalk) : QueuedWalk :=
  match w.queue with
  | [] => w
  | t :: rest => ⟨rest ++ t.children, w.visited ++ [t], w.complexity + t.weight⟩

/-- The walk after some more nodes. -/
def after (w : QueuedWalk) (ts : List Tree) (queue : List Tree) : QueuedWalk :=
  ⟨queue, w.visited ++ ts, w.complexity + (ts.map Tree.weight).sum⟩

/-- The nodes at the front of the queue are looked at one after the other, and their children follow all others. -/
theorem steps_level (h : w.queue = ts ++ us) : step^[ts.length] w = w.after ts (us ++ ts.flatMap Tree.children) := by
  induction ts generalizing w us with
  | nil =>
    cases w
    simp_all [after]
  | cons t rest ih =>
    have hstep : w.step = w.after [t] (rest ++ (us ++ t.children)) := by
      simp [step, h, after]
    rw [List.length_cons, Function.iterate_succ_apply, hstep, ih rfl]
    simp [after, Nat.add_assoc]

/-- The walk takes as many steps as the trees in its queue have nodes, and looks at them level by level. -/
theorem steps_levels (hbound : Tree.heightAll w.queue ≤ bound) :
    step^[(Tree.nodesAll w.queue).length] w = w.after (Tree.levels bound w.queue) [] := by
  induction bound generalizing w with
  | zero =>
    have hempty : w.queue = [] := by
      cases hqueue : w.queue with
      | nil => rfl
      | cons t rest =>
        cases t
        simp only [hqueue, Tree.heightAll, Tree.height] at hbound
        omega
    cases w
    simp_all [after, Tree.levels, Tree.nodesAll]
  | succ bound ih =>
    have hlevel := steps_level (w := w) (List.append_nil w.queue).symm
    have hbelow := ih (w := w.after w.queue (w.queue.flatMap Tree.children)) (Tree.heightAll_flatMap_children hbound)
    rw [List.nil_append] at hlevel
    rw [(Tree.nodesAll_perm w.queue).length_eq, List.length_append, Nat.add_comm, Function.iterate_add_apply, hlevel]
    simp only [after] at hbelow ⊢
    rw [hbelow]
    simp [Tree.levels, Nat.add_assoc]

/-- After as many steps as a tree has nodes its walk has looked at each of them, level by level. -/
theorem steps_nodes (t : Tree) : step^[t.nodes.length] (start t) = (start t).after t.walk [] := by
  have hbound : Tree.heightAll (start t).queue ≤ t.height := by simp [start, Tree.heightAll]
  have hsteps := steps_levels hbound
  simpa [start, Tree.nodesAll, Tree.walk] using hsteps

/-- No step looks at more than one node. -/
theorem length_visited_steps_le (w : QueuedWalk) (n : Nat) : (step^[n] w).visited.length ≤ w.visited.length + n := by
  induction n generalizing w with
  | zero => exact Nat.le_refl _
  | succ n ih =>
    have hstep : w.step.visited.length ≤ w.visited.length + 1 := by
      unfold step
      split <;> simp
    have hrest := ih w.step
    rw [Function.iterate_succ_apply]
    omega

/-- A walk with an empty queue stays as it is. -/
theorem steps_of_queue_eq_nil (h : w.queue = []) (n : Nat) : step^[n] w = w := by
  have hstep : w.step = w := by simp [step, h]
  exact Function.iterate_fixed hstep n

/-- The walk through a tree comes to an end after as many steps as the tree has nodes, and not earlier. -/
theorem queue_steps_eq_nil_iff (t : Tree) (n : Nat) : (step^[n] (start t)).queue = [] ↔ t.nodes.length ≤ n := by
  have hall := steps_nodes t
  constructor
  · intro hempty
    by_contra hless
    -- An early end would be final, with fewer nodes looked at than there are.
    obtain ⟨m, hm⟩ := Nat.exists_eq_add_of_lt (Nat.lt_of_not_le hless)
    have hfinal : step^[t.nodes.length] (start t) = step^[n] (start t) := by
      rw [hm, Nat.add_assoc, Nat.add_comm, Function.iterate_add_apply]
      exact steps_of_queue_eq_nil hempty _
    have hvisited := length_visited_steps_le (start t) n
    rw [← hfinal, hall] at hvisited
    simp only [after, start, List.nil_append, List.length_nil, (Tree.walk_perm_nodes t).length_eq] at hvisited
    omega
  · intro hle
    obtain ⟨m, rfl⟩ := Nat.exists_eq_add_of_le hle
    rw [Nat.add_comm, Function.iterate_add_apply, hall, steps_of_queue_eq_nil rfl]
    rfl

/-- The walk through a tree ends with its complexity. -/
theorem complexity_steps (t : Tree) : (step^[t.nodes.length] (start t)).complexity = t.complexity := by
  rw [steps_nodes, Tree.complexity, ← List.sum_eq_foldr]
  rfl

end QueuedWalk

end Source

namespace ClassMetrics

open Source.Tree (replaceAt)
open Source.QueuedWalk (start step)

variable {t method old new : Tree} {i : Nat} {place : List Nat} {x : Int}

/-- What a part of a class adds to its weighted method count. -/
def methodWeight (child : Tree) : Nat := if child.isFunction then 1 + child.decisions else 0

/-- The methods of a class have the weights of its parts. -/
theorem sum_methods (t : Tree) :
    ((methods t).map fun m => 1 + m.2.decisions).sum = (t.children.map methodWeight).sum := by
  rw [methods]
  induction t.children with
  | nil => rfl
  | cons child rest ih =>
    rw [List.filterMap_cons, List.map_cons, List.sum_cons, methodWeight, Tree.isFunction]
    cases child.functionHead? with
    | none => simpa using ih
    | some head => simpa using ih

/-- The weighted method count adds up one and the decisions of each method. -/
theorem wmc_eq_sum (names : List String) (name : String) (line : Nat) (t : Tree) :
    (ofClass names name line t).wmc = (((methods t).map fun m => 1 + m.2.decisions).sum : Nat) := by
  rw [ofClass, ← List.sum_eq_foldr]
  simp only [Tree.complexity_eq]

/-- Another part of a method changes the weighted method count by as much as its own decisions. -/
theorem wmc_replaceAt (names : List String) (name : String) (line : Nat) (hmethod : t.children[i]? = some method)
    (hfunction : method.isFunction = true) (hold : method.at? place = some old)
    (hroot : place = [] → new.isFunction = true) (hnew : (new.decisions : Int) = old.decisions + x) :
    (ofClass names name line (replaceAt new (i :: place) t)).wmc = (ofClass names name line t).wmc + x := by
  have hchildren := Tree.sum_modify methodWeight (replaceAt new place) hmethod
  have hinside := Tree.decisions_replaceAt new hold
  rw [methodWeight, methodWeight, hfunction, Tree.isFunction_replaceAt hfunction hroot] at hchildren
  rw [wmc_eq_sum, wmc_eq_sum, sum_methods, sum_methods, Tree.children_replaceAt_cons]
  simp only [if_true] at hchildren
  omega

/-- The walk with a queue through a function comes to an end after as many steps as the function has nodes, has then
looked at all of them level by level, and has counted the complexity: one more than the decisions in the function. The
weighted method count of a class adds this up over its methods, and a part of a method that is replaced by another with
`x` more decisions raises it by `x`. -/
theorem wmc_adds_up_decisions :
    (∀ t : Tree,
      (∀ n, (step^[n] (start t)).queue = [] ↔ t.nodes.length ≤ n) ∧
      (step^[t.nodes.length] (start t)).visited = t.walk ∧
      (step^[t.nodes.length] (start t)).complexity = t.complexity ∧
      t.complexity = 1 + t.decisions) ∧
    ∀ (names : List String) (name : String) (line : Nat) (t : Tree),
      (ofClass names name line t).wmc = (((methods t).map fun m => 1 + m.2.decisions).sum : Nat) ∧
      ∀ {i : Nat} {place : List Nat} {method old new : Tree} {x : Int}, t.children[i]? = some method →
        method.isFunction = true → method.at? place = some old → (place = [] → new.isFunction = true) →
        (new.decisions : Int) = old.decisions + x →
        (ofClass names name line (replaceAt new (i :: place) t)).wmc = (ofClass names name line t).wmc + x := by
  constructor
  · intro t
    refine ⟨Source.QueuedWalk.queue_steps_eq_nil_iff t, ?_, Source.QueuedWalk.complexity_steps t, t.complexity_eq⟩
    rw [Source.QueuedWalk.steps_nodes]
    rfl
  · intro names name line t
    exact ⟨wmc_eq_sum names name line t, wmc_replaceAt names name line⟩

/-- An alternative of three names in the place of one name in a method raises the weighted method count by two. -/
theorem wmc_adds_up_decisions_alternative :
    let names : List Tree := ["a", "b", "c"].map fun id => .node (.name id) []
    let method : Tree := .node (.function { name := "f" }) [.node (.branch .whileLoop) names]
    let t : Tree := .node (.classDef "A" 1) [method]
    (ofClass [] "A" 1 t).wmc = 2 ∧
      (ofClass [] "A" 1 (replaceAt (.node .boolOp names) [0, 0, 1] t)).wmc = 4 := by
  intro names method t
  have hmethod : t.children[0]? = some method := rfl
  have hold : method.at? [0, 1] = some (.node (.name "b") []) := rfl
  exact ⟨rfl, (wmc_adds_up_decisions.2 [] "A" 1 t).2 (x := 2) hmethod rfl hold nofun rfl⟩

end ClassMetrics

end Hotspots
