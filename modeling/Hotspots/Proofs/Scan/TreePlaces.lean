import Hotspots.Scan.ClassMetrics

/-!
# Places in a syntax tree

A place is a list of numbers of children, from the root downwards. `Tree.at?` is the part of a tree at a place, and
`Tree.replaceAt` puts another tree there. A replacement below the root leaves the construct at the root and the number
of its children as they were.
-/

namespace Hotspots.Source.Tree

/-- The part of a tree at a place. -/
def at? (t : Tree) : List Nat → Option Tree
  | [] => some t
  | i :: place => t.children[i]?.bind fun child => child.at? place

/-- The tree with another part at a place. -/
def replaceAt (new : Tree) : List Nat → Tree → Tree
  | [], _ => new
  | i :: place, t => node t.label (t.children.modify i (replaceAt new place))

variable {t part : Tree} {i : Nat} {place : List Nat}

/-- The whole tree stands at its root. -/
@[simp] theorem at?_nil (t : Tree) : t.at? [] = some t := rfl

/-- A part below the root is a part of a child. -/
theorem at?_cons_eq_some_iff :
    t.at? (i :: place) = some part ↔ ∃ child, t.children[i]? = some child ∧ child.at? place = some part := by
  rw [at?, Option.bind_eq_some_iff]

/-- A tree is its root with its children. -/
@[simp] theorem node_label_children (t : Tree) : node t.label t.children = t := by
  cases t
  rfl

/-- Replacing the whole tree leaves nothing of it. -/
@[simp] theorem replaceAt_nil (new t : Tree) : replaceAt new [] t = new := rfl

/-- A replacement below the root keeps the construct at the root. -/
@[simp] theorem label_replaceAt_cons (new t : Tree) (i : Nat) (place : List Nat) :
    (replaceAt new (i :: place) t).label = t.label := rfl

/-- A replacement below the root changes one child. -/
@[simp] theorem children_replaceAt_cons (new t : Tree) (i : Nat) (place : List Nat) :
    (replaceAt new (i :: place) t).children = t.children.modify i (replaceAt new place) := rfl

end Hotspots.Source.Tree
