import Hotspots.Proofs.Scan.TreePlaces

/-!
# Attributes of plain names, place by place

The accesses in a tree are the places where it has an attribute of a plain name. An access is called if its place is
that of the first child of a call (`Access.mem_inTree_iff`), so that the two accesses in `o.a(o.a)` differ.
-/

namespace Hotspots

open Source (Tree Label)

namespace Source.Tree

/-- The plain name and its attribute that a tree is, if it is one. -/
def access? : Tree → Option (String × String)
  | node (.attribute field) [node (.name owner) _] => some (owner, field)
  | _ => none

/-- A tree has an attribute of a plain name at a place. -/
def Reads (t : Tree) (place : List Nat) (owner field : String) : Prop :=
  (t.at? place).bind access? = some (owner, field)

/-- The part of a tree at a place is what a call calls. -/
def IsCallee (t : Tree) (place : List Nat) : Prop :=
  ∃ above call, place = above ++ [0] ∧ t.at? above = some call ∧ call.label = .call

variable {t : Tree} {i : Nat} {place : List Nat} {owner field : String}

/-- A tree is itself the attribute at its root. -/
theorem reads_nil : t.Reads [] owner field ↔ t.access? = some (owner, field) := Iff.rfl

/-- The attributes below the root are those of the children. -/
theorem reads_cons :
    t.Reads (i :: place) owner field ↔ ∃ child, t.children[i]? = some child ∧ child.Reads place owner field := by
  rw [Reads, at?]
  cases t.children[i]? <;> simp [Reads]

/-- A plain name has no attributes in it. -/
theorem not_reads_name {id : String} : ¬(node (.name id) []).Reads place owner field := by
  cases place <;> simp [reads_nil, reads_cons, access?, children]

/-- An attribute of a plain name has itself for its only attribute. -/
theorem reads_attribute {id member : String} :
    (node (.attribute member) [node (.name id) []]).Reads place owner field ↔
      place = [] ∧ id = owner ∧ member = field := by
  cases place with
  | nil => simp [reads_nil, access?]
  | cons i place => cases i <;> simp [reads_cons, children, not_reads_name]

/-- The attributes in a function are those in its parts. -/
theorem reads_function {head : FunctionHead} {cs : List Tree} :
    (node (.function head) cs).Reads place owner field ↔
      ∃ i rest child, place = i :: rest ∧ cs[i]? = some child ∧ child.Reads rest owner field := by
  cases place with
  | nil => simp [reads_nil, access?]
  | cons i place =>
    rw [reads_cons, children]
    constructor
    · rintro ⟨child, hchild, hinside⟩
      exact ⟨i, place, child, rfl, hchild, hinside⟩
    · rintro ⟨j, rest, child, hplace, hchild, hinside⟩
      obtain ⟨rfl, rfl⟩ := List.cons.inj hplace
      exact ⟨child, hchild, hinside⟩

/-- Nothing calls the whole tree. -/
theorem not_isCallee_nil (t : Tree) : ¬t.IsCallee [] := by
  rintro ⟨above, call, hplace, -⟩
  simp at hplace

/-- What is called below the root is the first child of a call at the root, or called in a child. -/
theorem isCallee_cons : t.IsCallee (i :: place) ↔
    (place = [] ∧ i = 0 ∧ t.label = .call) ∨ ∃ child, t.children[i]? = some child ∧ child.IsCallee place := by
  constructor
  · rintro ⟨above, call, hplace, hcall, hlabel⟩
    cases above with
    | nil =>
      obtain ⟨rfl, rfl⟩ : i = 0 ∧ place = [] := by simpa using hplace
      obtain rfl : t = call := by simpa using hcall
      exact .inl ⟨rfl, rfl, hlabel⟩
    | cons j above =>
      obtain ⟨rfl, rfl⟩ : i = j ∧ place = above ++ [0] := by simpa using hplace
      obtain ⟨child, hchild, hbelow⟩ := at?_cons_eq_some_iff.1 hcall
      exact .inr ⟨child, hchild, above, call, rfl, hbelow, hlabel⟩
  · rintro (⟨rfl, rfl, hlabel⟩ | ⟨child, hchild, above, call, rfl, hcall, hlabel⟩)
    · exact ⟨[], t, rfl, rfl, hlabel⟩
    · exact ⟨i :: above, call, rfl, at?_cons_eq_some_iff.2 ⟨child, hchild, hcall⟩, hlabel⟩

end Source.Tree

namespace Access

variable {access : Access} {called call : Bool} {label : Label} {cs : List Tree}

/-- A node is an access if it is an attribute of a plain name. -/
theorem mem_ofNode_iff : access ∈ ofNode called label cs ↔
    (Source.Tree.node label cs).access? = some (access.owner, access.field) ∧ access.called = called := by
  unfold ofNode Tree.access?
  split
  · simp only [List.mem_singleton, Option.some.injEq, Prod.mk.injEq]
    constructor
    · rintro rfl
      exact ⟨⟨rfl, rfl⟩, rfl⟩
    · rintro ⟨⟨rfl, rfl⟩, rfl⟩
      rfl
  · next hother =>
    split
    · next hnode =>
      obtain ⟨rfl, rfl⟩ := Source.Tree.node.inj hnode
      exact (hother _ _ _ rfl rfl).elim
    · simp

/-- The accesses in several trees are those in each of them; at most the first is what a call calls. -/
theorem mem_inChildren_iff : access ∈ inChildren call cs ↔
    ∃ i child, cs[i]? = some child ∧ access ∈ inTree (call && i == 0) child := by
  induction cs generalizing call with
  | nil => simp [inChildren]
  | cons t rest ih =>
    rw [inChildren, List.mem_append, ih]
    constructor
    · rintro (h | ⟨i, child, hchild, h⟩)
      · exact ⟨0, t, rfl, by simpa using h⟩
      · exact ⟨i + 1, child, by simpa using hchild, by simpa using h⟩
    · rintro ⟨i, child, hchild, h⟩
      cases i with
      | zero =>
        obtain rfl : t = child := by simpa using hchild
        exact .inl (by simpa using h)
      | succ i => exact .inr ⟨i, child, by simpa using hchild, by simpa using h⟩

/-- The accesses in a tree are the places with attributes of plain names. They are called if a call calls the part at
their place, or if they are the whole tree and it is called. -/
theorem mem_inTree_iff (called : Bool) (t : Tree) : access ∈ inTree called t ↔
    ∃ place, t.Reads place access.owner access.field ∧
      (access.called = true ↔ (place = [] ∧ called = true) ∨ t.IsCallee place) := by
  cases t with
  | node label cs =>
    rw [inTree, List.mem_append, mem_ofNode_iff, mem_inChildren_iff]
    constructor
    · rintro (⟨hroot, hcalled⟩ | ⟨i, child, hchild, h⟩)
      · exact ⟨[], hroot, by simp [hcalled, Tree.not_isCallee_nil]⟩
      · have hlower := Tree.height_le_heightAll (List.mem_of_getElem? hchild)
        obtain ⟨place, hreads, hcalled⟩ := (mem_inTree_iff _ child).1 h
        refine ⟨i :: place, Tree.reads_cons.2 ⟨child, hchild, hreads⟩, ?_⟩
        rw [hcalled, Tree.isCallee_cons, Tree.children, hchild]
        simp [Tree.label, and_comm]
    · rintro ⟨place, hreads, hcalled⟩
      cases place with
      | nil => exact .inl ⟨hreads, by simpa [Tree.not_isCallee_nil] using hcalled⟩
      | cons i place =>
        obtain ⟨child, hchild, hinside⟩ := Tree.reads_cons.1 hreads
        rw [Tree.children] at hchild
        have hlower := Tree.height_le_heightAll (List.mem_of_getElem? hchild)
        refine .inr ⟨i, child, hchild, (mem_inTree_iff _ child).2 ⟨place, hinside, ?_⟩⟩
        rw [hcalled, Tree.isCallee_cons, Tree.children, hchild]
        simp [Tree.label, and_comm]
termination_by t.height
decreasing_by
  all_goals
    rw [Source.Tree.height]
    exact Nat.lt_succ_of_le hlower

/-- An attribute of a plain name at a place is an access. -/
theorem exists_mem_inTree {t : Tree} {place : List Nat} {owner field : String} (h : t.Reads place owner field) :
    ∃ called, ⟨owner, field, called⟩ ∈ inTree false t ∧ (called = true ↔ t.IsCallee place) := by
  classical
  exact ⟨decide (t.IsCallee place), (mem_inTree_iff false t).2 ⟨place, h, by simp⟩, by simp⟩

end Access

/-- The names of the methods of a class. -/
def ClassMetrics.methodNames (t : Tree) : List String := (methods t).map (·.1.name)

end Hotspots
