import Mathlib.Data.List.Nodup
import Mathlib.Order.Lattice

/-!
# Lists sorted by a key

Sorting by a key into a linear order puts a list in this order. If the key tells the elements apart, the sorted list
depends on the elements alone and not on the order in which they were given (`eq_mergeSort_of_perm`). Sorting is stable:
what a test keeps of a list is sorted as it was among the rest (`filter_mergeSort_key`).
-/

namespace Hotspots

variable {α L : Type} [LinearOrder L] {key : α → L}

/-- The order of a key is transitive. -/
theorem decide_key_trans (key : α → L) (a b c : α) (hab : decide (key a ≤ key b) = true)
    (hbc : decide (key b ≤ key c) = true) : decide (key a ≤ key c) = true :=
  decide_eq_true (le_trans (of_decide_eq_true hab) (of_decide_eq_true hbc))

/-- The order of a key is total. -/
theorem decide_key_total (key : α → L) (a b : α) : (decide (key a ≤ key b) || decide (key b ≤ key a)) = true := by
  simpa only [Bool.or_eq_true, decide_eq_true_eq] using le_total (key a) (key b)

/-- What is sorted by a key is in the order of the key. -/
theorem pairwise_mergeSort_key (key : α → L) (as : List α) :
    (as.mergeSort fun a b => decide (key a ≤ key b)).Pairwise fun a b => key a ≤ key b := by
  simpa only [decide_eq_true_eq] using List.pairwise_mergeSort (decide_key_trans key) (decide_key_total key) as

/-- A list in the order of a key that tells its elements apart is what sorting makes of them. -/
theorem eq_mergeSort_of_perm {as bs : List α} (hkeys : (as.map key).Nodup) (hperm : bs.Perm as)
    (hsorted : bs.Pairwise fun a b => key a ≤ key b) : bs = as.mergeSort fun a b => decide (key a ≤ key b) := by
  have hall := List.mergeSort_perm as fun a b => decide (key a ≤ key b)
  refine (hperm.trans hall.symm).eq_of_pairwise (fun a b ha hb hab hba => ?_) hsorted (pairwise_mergeSort_key key as)
  exact List.inj_on_of_nodup_map hkeys (hperm.mem_iff.1 ha) (hall.mem_iff.1 hb) (le_antisymm hab hba)

/-! ## Sorting a part of a list -/

/-- The first element of a list is sorted before the others, unless their keys are less. -/
theorem mergeSort_cons_key (key : α → L) (a : α) (as : List α) :
    ((a :: as).mergeSort fun a b => decide (key a ≤ key b)) =
      (as.mergeSort fun a b => decide (key a ≤ key b)).filter (fun b => decide (key b < key a)) ++
        a :: (as.mergeSort fun a b => decide (key a ≤ key b)).filter (fun b => !decide (key b < key a)) := by
  obtain ⟨less, rest, hall, has, hless⟩ :=
    List.mergeSort_cons (decide_key_trans key) (decide_key_total key) a as
  have hsorted := pairwise_mergeSort_key key (a :: as)
  rw [hall] at hsorted
  have hlt : ∀ b ∈ less, decide (key b < key a) = true := by
    intro b hb
    have hnot := hless b hb
    rw [Bool.not_eq_true', decide_eq_false_iff_not, not_le] at hnot
    exact decide_eq_true hnot
  have hge : ∀ b ∈ rest, decide (key b < key a) = false := fun b hb =>
    decide_eq_false (not_lt.2 ((List.pairwise_cons.1 (List.pairwise_append.1 hsorted).2.1).1 b hb))
  have hfirst : (less ++ rest).filter (fun b => decide (key b < key a)) = less := by
    rw [List.filter_append, List.filter_eq_self.2 hlt,
      List.filter_eq_nil_iff.2 fun b hb => ne_true_of_eq_false (hge b hb), List.append_nil]
  have hlast : (less ++ rest).filter (fun b => !decide (key b < key a)) = rest := by
    rw [List.filter_append, List.filter_eq_nil_iff.2 fun b hb => by rw [hlt b hb]; exact Bool.false_ne_true,
      List.filter_eq_self.2 fun b hb => by rw [hge b hb]; rfl, List.nil_append]
  rw [hall, has, hfirst, hlast]

/-- Sorting is stable: what a test keeps of a list is sorted as it was among the rest. -/
theorem filter_mergeSort_key (key : α → L) (p : α → Bool) (as : List α) :
    (as.mergeSort fun a b => decide (key a ≤ key b)).filter p =
      (as.filter p).mergeSort fun a b => decide (key a ≤ key b) := by
  induction as with
  | nil => simp only [List.mergeSort_nil, List.filter_nil]
  | cons a as ih =>
    by_cases ha : p a = true
    · rw [mergeSort_cons_key, List.filter_append, List.filter_cons_of_pos ha, List.filter_comm p, List.filter_comm p, ih,
        List.filter_cons_of_pos ha, mergeSort_cons_key]
    · obtain ⟨less, rest, hall, has, -⟩ :=
        List.mergeSort_cons (decide_key_trans key) (decide_key_total key) a as
      rw [hall, List.filter_append, List.filter_cons_of_neg ha, ← List.filter_append, ← has, ih,
        List.filter_cons_of_neg ha]

/-- If a test that an element passes is passed by all that come before it, then what passes comes first. -/
theorem filter_prefix_of_pairwise {p : α → Bool} {as : List α}
    (h : as.Pairwise fun a b => p b = true → p a = true) : as.filter p <+: as := by
  induction as with
  | nil => exact List.prefix_rfl
  | cons a as ih =>
    obtain ⟨hfirst, hrest⟩ := List.pairwise_cons.1 h
    by_cases ha : p a = true
    · rw [List.filter_cons_of_pos ha]
      exact (List.prefix_cons_inj a).2 (ih hrest)
    · rw [List.filter_eq_nil_iff.2]
      · exact List.nil_prefix
      · exact List.forall_mem_cons.2 ⟨ha, fun b hb hpb => ha (hfirst b hb hpb)⟩

end Hotspots
