/-!
# Syntax trees

A syntax tree is a labelled tree with ordered children. A label says what the measures look at: names,
attributes, calls, decision points, functions, classes and imports; all other constructs share one
label. `walk` lists the nodes of a tree level by level, and `nodes` lists the same nodes in depth-first
order (`walk_perm_nodes`).
-/

namespace Hotspots.Source

/-- The constructs that decide between paths of execution, each by one. -/
inductive Branch where
  | ifStatement
  | forLoop
  | whileLoop
  | ifExpression
  | handler
  | assertion
  | matchCase
  deriving DecidableEq, Repr

/-- What a function definition declares in its head. -/
structure FunctionHead where
  /-- Whether the function is asynchronous. -/
  async : Bool := false
  /-- The name that the definition binds. -/
  name : String
  /-- The parameters that can only be passed by position. -/
  positionalOnly : List String := []
  /-- The other positional parameters. -/
  positional : List String := []
  /-- The number of decorators. -/
  decorators : Nat := 0
  deriving DecidableEq, Repr

/-- The construct at a node of a syntax tree. -/
inductive Label where
  /-- A function definition; its decorators come first among the children. -/
  | function (head : FunctionHead)
  | classDef (name : String) (line : Nat)
  /-- An import statement and the names it binds. -/
  | imports (names : List String)
  | branch (kind : Branch)
  /-- `and` or `or` over the children. -/
  | boolOp
  /-- One `for … in …` of a comprehension and the number of its filters. -/
  | clause (filters : Nat)
  /-- A call; the first child is the callee. -/
  | call
  /-- An attribute of its only child. -/
  | attribute (field : String)
  | name (identifier : String)
  | subscript
  | starred
  | tuple
  | list
  | other
  deriving DecidableEq, Repr

/-- A syntax tree. -/
inductive Tree where
  | node (label : Label) (children : List Tree)
  deriving Repr

namespace Tree

/-- The construct at the root. -/
def label : Tree → Label
  | node l _ => l

/-- The parts of the root, in source order of the grammar. -/
def children : Tree → List Tree
  | node _ cs => cs

/-- The decorators of a function definition. -/
def decorators : Tree → List Tree
  | node (.function head) cs => cs.take head.decorators
  | _ => []

/-- The name that a tree is, if it is one. -/
def name? : Tree → Option String
  | node (.name identifier) _ => some identifier
  | _ => none

mutual

/-- The number of levels of a tree. -/
def height : Tree → Nat
  | node _ cs => heightAll cs + 1

/-- The number of levels of the highest of several trees. -/
def heightAll : List Tree → Nat
  | [] => 0
  | t :: rest => max t.height (heightAll rest)

end

mutual

/-- The nodes of a tree in depth-first order, the tree itself first. -/
def nodes : Tree → List Tree
  | node l cs => node l cs :: nodesAll cs

/-- The nodes of several trees, one tree after the other. -/
def nodesAll : List Tree → List Tree
  | [] => []
  | t :: rest => t.nodes ++ nodesAll rest

end

/-- The nodes of trees of at most the given height, level by level. -/
def levels : Nat → List Tree → List Tree
  | 0, _ => []
  | bound + 1, level => level ++ levels bound (level.flatMap children)

/-- The nodes of a tree level by level, each level from left to right. -/
def walk (t : Tree) : List Tree := levels t.height [t]

/-- The height of a list of trees bounds the height of each. -/
theorem height_le_heightAll {t : Tree} {ts : List Tree} (h : t ∈ ts) : t.height ≤ heightAll ts := by
  induction ts with
  | nil => simp at h
  | cons s rest ih =>
    rw [heightAll]
    cases List.mem_cons.1 h with
    | inl h => subst h; exact Nat.le_max_left _ _
    | inr h => exact Nat.le_trans (ih h) (Nat.le_max_right _ _)

/-- A list is no higher than a bound on each of its trees. -/
theorem heightAll_le {ts : List Tree} {bound : Nat} (h : ∀ t ∈ ts, t.height ≤ bound) :
    heightAll ts ≤ bound := by
  induction ts with
  | nil => exact Nat.zero_le _
  | cons s rest ih =>
    rw [heightAll]
    exact Nat.max_le.2 ⟨h s (by simp), ih fun t ht => h t (List.mem_cons_of_mem _ ht)⟩

/-- The children of a level are lower than the level. -/
theorem heightAll_flatMap_children {ts : List Tree} {bound : Nat} (h : heightAll ts ≤ bound + 1) :
    heightAll (ts.flatMap children) ≤ bound := by
  refine heightAll_le fun t ht => ?_
  obtain ⟨s, hs, hst⟩ := List.mem_flatMap.1 ht
  have := Nat.le_trans (height_le_heightAll hs) h
  cases s with
  | node l cs =>
    rw [height] at this
    exact Nat.le_trans (height_le_heightAll hst) (Nat.le_of_succ_le_succ this)

/-- The nodes of a list of trees are the trees and the nodes of their children. -/
theorem nodesAll_perm (ts : List Tree) :
    (nodesAll ts).Perm (ts ++ nodesAll (ts.flatMap children)) := by
  have append : ∀ as bs : List Tree, nodesAll (as ++ bs) = nodesAll as ++ nodesAll bs := by
    intro as bs
    induction as with
    | nil => rfl
    | cons a as ih => simp [nodesAll, ih]
  induction ts with
  | nil => exact List.Perm.refl _
  | cons t rest ih =>
    cases t with
    | node l cs =>
      rw [nodesAll, nodes, List.flatMap_cons, append, children, List.cons_append, List.cons_append]
      refine List.Perm.cons _ ?_
      refine (List.Perm.append_left _ ih).trans ?_
      rw [← List.append_assoc, ← List.append_assoc]
      exact List.Perm.append_right _ List.perm_append_comm

/-- The levels of a list of trees hold exactly its nodes. -/
theorem levels_perm {bound : Nat} {ts : List Tree} (h : heightAll ts ≤ bound) :
    (levels bound ts).Perm (nodesAll ts) := by
  induction bound generalizing ts with
  | zero =>
    cases ts with
    | nil => exact List.Perm.refl _
    | cons t rest =>
      cases t with
      | node l cs =>
        rw [heightAll, height] at h
        exact absurd (Nat.le_trans (Nat.le_max_left _ _) h) (by omega)
  | succ bound ih =>
    rw [levels]
    exact (List.Perm.append_left _ (ih (heightAll_flatMap_children h))).trans (nodesAll_perm ts).symm

/-- Both orders list the same nodes, each as often as it occurs. -/
theorem walk_perm_nodes (t : Tree) : t.walk.Perm t.nodes := by
  have bound : heightAll [t] ≤ t.height := Nat.le_of_eq (by rw [heightAll, heightAll, Nat.max_zero])
  simpa [walk, nodesAll] using levels_perm bound

end Tree

end Hotspots.Source
