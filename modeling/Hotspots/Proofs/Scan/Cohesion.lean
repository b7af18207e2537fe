import Hotspots.Proofs.Record.Lookup
import Hotspots.Proofs.Scan.AcceptedRule
import Hotspots.Proofs.Scan.Accesses
import Mathlib.Data.Multiset.Powerset

/-!
# The share of connected pairs of methods

Two methods of a class are connected if they use a common attribute of the instance. The cohesion of a class is the
share of the connected ones among all pairs of its methods that construct nothing, where two definitions of one name
are two methods. The measure keeps the attributes of a method under its name, so that of several definitions of a name
only the last takes part: it is the share among the last definitions (`tcc_eq_connectedShare`), and that among all
methods if no two of them have the same name (`takesAllPairs_iff`).
-/

namespace Hotspots

open Source (Tree FunctionHead)

namespace ClassMetrics

section Pairs

variable {α β : Type}

/-- The unordered pairs of a collection of which both use a common attribute. -/
noncomputable def connectedPairs (uses : α → String → Prop) (ms : Multiset α) : Multiset (Multiset α) :=
  open Classical in (ms.powersetCard 2).filter fun pair => ∃ field, ∀ m ∈ pair, uses m field

/-- The share of connected pairs among all unordered pairs; 1 if there are no two members. -/
noncomputable def connectedShare (uses : α → String → Prop) (ms : Multiset α) : Binary64 :=
  if ms.card < 2 then .ofInt 1
  else .ofIntQuotient ((connectedPairs uses ms).card : Nat) ((ms.powersetCard 2).card : Nat)

/-- No more pairs are connected than there are. -/
theorem card_connectedPairs_le (uses : α → String → Prop) (ms : Multiset α) :
    (connectedPairs uses ms).card ≤ (ms.powersetCard 2).card := by
  classical
  exact Multiset.card_le_card (Multiset.filter_le _ _)

/-- A share is from zero on and at most one. -/
theorem connectedShare_bounds (uses : α → String → Prop) (ms : Multiset α) :
    Binary64.zero.le (connectedShare uses ms) = true ∧ (connectedShare uses ms).le (.ofInt 1) = true := by
  rw [connectedShare]
  split
  · exact ⟨Binary64.zero_le_ofInt Int.one_nonneg, by decide +kernel⟩
  · next htwo =>
    have hpairs : 0 < (ms.powersetCard 2).card := by
      rw [Multiset.card_powersetCard]
      exact Nat.choose_pos (by omega)
    have hle := card_connectedPairs_le uses ms
    exact ⟨Binary64.zero_le_ofIntQuotient (Int.natCast_nonneg _) (by omega),
      Binary64.ofIntQuotient_le_one (Int.natCast_nonneg _) (by omega) (by omega)⟩

/-- The share of images is that of the members with what their images use. -/
theorem connectedShare_map (uses : β → String → Prop) (f : α → β) (ms : Multiset α) :
    connectedShare uses (ms.map f) = connectedShare (fun m => uses (f m)) ms := by
  classical
  have hconnected : (connectedPairs uses (ms.map f)).card = (connectedPairs (fun m => uses (f m)) ms).card := by
    rw [connectedPairs, connectedPairs, Multiset.powersetCard_map, Multiset.filter_map, Multiset.card_map]
    simp
  rw [connectedShare, connectedShare, hconnected, Multiset.card_map, Multiset.powersetCard_map, Multiset.card_map]

/-- The pairs of a list are its parts of two elements. -/
theorem coe_map_pairs (l : List α) :
    (((pairs l).map fun p => ({p.1, p.2} : Multiset α) : List (Multiset α)) : Multiset (Multiset α)) =
      Multiset.powersetCard 2 (l : Multiset α) := by
  induction l with
  | nil => rfl
  | cons a rest ih =>
    rw [← Multiset.cons_coe, Multiset.powersetCard_cons, Multiset.powersetCard_one, ← ih, pairs, List.map_append,
      ← Multiset.coe_add, add_comm]
    simp [Function.comp_def]

/-- A list has no pairs if it does not have two elements. -/
theorem isEmpty_pairs (l : List α) : (pairs l).isEmpty = true ↔ l.length < 2 := by
  cases l with
  | nil => simp [pairs]
  | cons a rest => cases rest <;> simp [pairs]

/-- The cohesion of lists of attributes is the share of the pairs of lists with a common attribute. -/
theorem cohesion_eq_connectedShare (fields : List (List String)) :
    cohesion fields = connectedShare (fun used field => field ∈ used) (fields : Multiset (List String)) := by
  classical
  have hall : (Multiset.powersetCard 2 (fields : Multiset (List String))).card = (pairs fields).length := by
    rw [← coe_map_pairs, Multiset.coe_card, List.length_map]
  have hconnected : (connectedPairs (fun used field => field ∈ used) (fields : Multiset (List String))).card =
      ((pairs fields).filter fun pair => share pair.1 pair.2).length := by
    rw [connectedPairs, ← coe_map_pairs, Multiset.filter_coe, Multiset.coe_card, List.filter_map, List.length_map]
    refine congrArg List.length (List.filter_congr fun p _ => ?_)
    rw [Bool.eq_iff_iff]
    simp [share]
  rw [cohesion, connectedShare, hall, hconnected, Multiset.coe_card]
  simp only [isEmpty_pairs]

end Pairs

/-- A method uses an attribute of the instance that is none of the methods `own` of the class. -/
def UsesField (own : List String) (m : FunctionHead × Tree) (field : String) : Prop :=
  ∃ place owner, m.2.Reads place owner field ∧ owner ∈ receivers m ∧ field ∉ own

/-- The methods of a class that construct nothing. -/
def ordinaryMethods (t : Tree) : List (FunctionHead × Tree) :=
  (methods t).filter fun m => !FunctionHead.isConstructor m.1

/-- The last of the methods of each name. -/
def latestMethods (ms : List (FunctionHead × Tree)) : List (FunctionHead × Tree) := Record.latestBy (·.1.name) ms

variable {own : List String} {m : FunctionHead × Tree} {field : String} {t : Tree} {moduleNames : List String}
  {name : String} {line : Nat}

/-- The attributes that are noted for a method are those that it uses. -/
theorem mem_usedFields_iff : field ∈ usedFields own m ↔ UsesField own m field := by
  simp only [usedFields, List.mem_map, List.mem_filter, Bool.and_eq_true, Bool.not_eq_true', List.contains_eq_mem,
    decide_eq_true_eq, decide_eq_false_iff_not]
  constructor
  · rintro ⟨⟨owner, field, called⟩, ⟨haccess, hreceiver, hown⟩, rfl⟩
    obtain ⟨place, hreads, -⟩ := (Access.mem_inTree_iff false m.2).1 haccess
    exact ⟨place, owner, hreads, hreceiver, hown⟩
  · rintro ⟨place, owner, hreads, hreceiver, hown⟩
    obtain ⟨called, haccess, -⟩ := Access.exists_mem_inTree hreads
    exact ⟨⟨owner, field, called⟩, ⟨haccess, hreceiver, hown⟩, rfl⟩

/-- The cohesion of the attributes of some methods is the share of connected pairs of them. -/
theorem cohesion_map_usedFields (own : List String) (ms : List (FunctionHead × Tree)) :
    cohesion (ms.map (usedFields own)) = connectedShare (UsesField own) ms := by
  have huses : (fun m field => field ∈ usedFields own m) = UsesField own :=
    funext fun m => funext fun field => propext mem_usedFields_iff
  rw [cohesion_eq_connectedShare, ← Multiset.map_coe, connectedShare_map, huses]

/-- The cohesion of a class is the share of connected pairs among the last definitions of its methods. -/
theorem tcc_eq_connectedShare (moduleNames : List String) (name : String) (line : Nat) (t : Tree) :
    (ofClass moduleNames name line t).tcc =
      connectedShare (UsesField (methodNames t)) (latestMethods (ordinaryMethods t)) := by
  have hlatest := Record.putAll_map_perm (fun m : FunctionHead × Tree => m.1.name) (usedFields (methodNames t))
    (ordinaryMethods t)
  have hnoted : fieldsByName (methods t) =
      Record.putAll ((ordinaryMethods t).map fun m => (m.1.name, usedFields (methodNames t) m)) [] := by
    rw [Record.putAll, List.foldl_map]
    rfl
  have hfields := hlatest.map Prod.snd
  rw [List.map_map] at hfields
  have hvalues : (((fieldsByName (methods t)).map (·.2) : List (List String)) : Multiset (List String)) =
      ((latestMethods (ordinaryMethods t)).map (usedFields (methodNames t)) : List (List String)) := by
    rw [hnoted]
    exact Multiset.coe_eq_coe.2 hfields
  rw [← cohesion_map_usedFields, cohesion_eq_connectedShare, ← hvalues, ← cohesion_eq_connectedShare]
  rfl

/-! ## All pairs -/

/-- The cohesion of a class is the share of connected pairs among all its methods that construct nothing, and it is the
same in whatever order the class lists its members. -/
structure TakesAllPairs (moduleNames : List String) (name : String) (line : Nat) (t : Tree) : Prop where
  eq_share : (ofClass moduleNames name line t).tcc = connectedShare (UsesField (methodNames t)) (ordinaryMethods t)
  zero_le : Binary64.zero.le (ofClass moduleNames name line t).tcc = true
  le_one : (ofClass moduleNames name line t).tcc.le (.ofInt 1) = true
  any_order : ∀ members, members.Perm t.children →
    (ofClass moduleNames name line (.node t.label members)).tcc = (ofClass moduleNames name line t).tcc

/-- What a method uses depends on the set of methods of the class only. -/
theorem usesField_congr {own' : List String} (h : ∀ id, id ∈ own ↔ id ∈ own') : UsesField own = UsesField own' := by
  funext m field
  simp only [UsesField, h]

section Order

variable {members : List Tree} (h : members.Perm t.children)

include h

/-- The methods of a class that lists its members in another order are the same. -/
theorem methods_perm : (methods (.node t.label members)).Perm (methods t) := h.filterMap _

/-- The attributes that a method uses do not depend on the order of the members of its class. -/
theorem usesField_of_perm : UsesField (methodNames (.node t.label members)) = UsesField (methodNames t) :=
  usesField_congr fun _ => ((methods_perm h).map _).mem_iff

/-- The methods that construct nothing are the same in another order. -/
theorem ordinaryMethods_perm : (ordinaryMethods (.node t.label members)).Perm (ordinaryMethods t) :=
  (methods_perm h).filter _

end Order

/-- The cohesion takes all pairs if in every order the last definitions of each name have the share of all. -/
theorem takesAllPairs_of_latest (h : ∀ members, members.Perm t.children →
    connectedShare (UsesField (methodNames t)) (latestMethods (ordinaryMethods (.node t.label members))) =
      connectedShare (UsesField (methodNames t)) (ordinaryMethods t)) : TakesAllPairs moduleNames name line t := by
  have hshare : ∀ members, members.Perm t.children → (ofClass moduleNames name line (.node t.label members)).tcc =
      connectedShare (UsesField (methodNames t)) (ordinaryMethods t) := fun members hmembers => by
    rw [tcc_eq_connectedShare, usesField_of_perm hmembers, h members hmembers]
  have hself := hshare t.children (.refl _)
  rw [Tree.node_label_children] at hself
  obtain ⟨hzero, hone⟩ := connectedShare_bounds (UsesField (methodNames t)) (ordinaryMethods t)
  exact ⟨hself, hself ▸ hzero, hself ▸ hone, fun members hmembers => (hshare members hmembers).trans hself.symm⟩

/-- The cohesion of a class takes all pairs of its methods if and only if, in whatever order the class lists its
members, the share of connected pairs among the last definitions of each name is that among all methods. This is so if
no two methods have the same name. -/
theorem takesAllPairs_iff (moduleNames : List String) (name : String) (line : Nat) (t : Tree) :
    (TakesAllPairs moduleNames name line t ↔ ∀ members, members.Perm t.children →
      connectedShare (UsesField (methodNames t)) (latestMethods (ordinaryMethods (.node t.label members))) =
        connectedShare (UsesField (methodNames t)) (ordinaryMethods t)) ∧
    (((ordinaryMethods t).map (·.1.name)).Nodup → TakesAllPairs moduleNames name line t) := by
  refine ⟨⟨fun h members hmembers => ?_, takesAllPairs_of_latest⟩, fun hnames => ?_⟩
  · rw [← h.eq_share, ← h.any_order members hmembers, tcc_eq_connectedShare, usesField_of_perm hmembers]
  · refine takesAllPairs_of_latest fun members hmembers => ?_
    have hperm := ordinaryMethods_perm hmembers
    rw [latestMethods, Record.latestBy_eq_self ((hperm.map _).nodup_iff.2 hnames), Multiset.coe_eq_coe.2 hperm]

/-- The pairs of three methods with different names are all taken: a constructor aside, one pair of three shares an
attribute. -/
theorem takesAllPairs_of_distinct :
    let uses (name field : String) : Tree :=
      .node (.function { name := name, positional := ["self"] }) [.node (.attribute field) [.node (.name "self") []]]
    let t : Tree := .node (.classDef "A" 1) [uses "__init__" "y", uses "f" "x", uses "g" "x", uses "h" "y"]
    ((ordinaryMethods t).map (·.1.name)).Nodup ∧ TakesAllPairs [] "A" 1 t ∧
      (ofClass [] "A" 1 t).tcc = .ofRatio false 1 3 := by
  intro uses t
  exact ⟨by decide, (takesAllPairs_iff [] "A" 1 t).2 (by decide), by decide +kernel⟩

/-- Two methods of one name without a common attribute cohere as if there were only one of them. -/
theorem not_takesAllPairs_of_redefined :
    let uses (field : String) : Tree :=
      .node (.function { name := "f", positional := ["self"] }) [.node (.attribute field) [.node (.name "self") []]]
    ¬TakesAllPairs [] "A" 1 (.node (.classDef "A" 1) [uses "x", uses "y"]) := by
  intro uses h
  have hshare := h.eq_share
  rw [← cohesion_map_usedFields] at hshare
  exact absurd hshare (by decide +kernel)

end ClassMetrics

end Hotspots
