import Hotspots.History.LineOverlap
import Hotspots.Proofs.Number.NearOne
import Mathlib.Data.Multiset.UnionInter

/-!
# Contents that are as similar as can be

The lines that two contents have in common are the intersection of two multisets. The similarity of contents is 1
exactly when all of their lines are in common, but for one line in 2⁵⁴ at most: neither the order of the lines nor
their ends matter (`similarity_eq_one_iff`, `areAlike_iff_perm`). Every other similarity is below 1.
-/

namespace Hotspots.LineOverlap

section Common

variable {α : Type} [DecidableEq α] [BEq α] [LawfulBEq α]

/-- The elements in common are the intersection of multisets. -/
theorem common_eq_card_inter (as bs : List α) : common as bs = ((as : Multiset α) ∩ (bs : Multiset α)).card := by
  obtain rfl : ‹BEq α› = instBEqOfDecidableEq := lawful_beq_subsingleton _ _
  induction as generalizing bs with
  | nil => simp [common]
  | cons a rest ih =>
    rw [common, ← Multiset.cons_coe]
    by_cases hmem : a ∈ bs
    · rw [if_pos (List.contains_iff_mem.2 hmem), ih, Multiset.cons_inter_of_pos _ (Multiset.mem_coe.2 hmem),
        Multiset.card_cons, Multiset.coe_erase]
    · rw [if_neg (by simpa using hmem), ih, Multiset.cons_inter_of_neg _ (by simpa using hmem)]

/-- Two lists never have more in common than both have elements together. -/
theorem two_mul_common_le (as bs : List α) : 2 * common as bs ≤ as.length + bs.length := by
  have hleft := Multiset.card_le_card (Multiset.inter_le_left (s := (as : Multiset α)) (t := bs))
  have hright := Multiset.card_le_card (Multiset.inter_le_right (s := (as : Multiset α)) (t := bs))
  rw [← common_eq_card_inter, Multiset.coe_card] at hleft hright
  omega

/-- Two lists have everything in common exactly if they are equal but for the order. -/
theorem two_mul_common_eq_iff (as bs : List α) : 2 * common as bs = as.length + bs.length ↔ as.Perm bs := by
  rw [← Multiset.coe_eq_coe, common_eq_card_inter]
  constructor
  · intro h
    have hleft := Multiset.card_le_card (Multiset.inter_le_left (s := (as : Multiset α)) (t := bs))
    have hright := Multiset.card_le_card (Multiset.inter_le_right (s := (as : Multiset α)) (t := bs))
    rw [Multiset.coe_card] at hleft hright
    exact (Multiset.eq_of_le_of_card_le Multiset.inter_le_left (by rw [Multiset.coe_card]; omega)).symm.trans
      (Multiset.eq_of_le_of_card_le Multiset.inter_le_right (by rw [Multiset.coe_card]; omega))
  · intro h
    have hlength : as.length = bs.length := congrArg Multiset.card h
    rw [h, le_antisymm Multiset.inter_le_left (Multiset.le_inter le_rfl le_rfl), Multiset.coe_card]
    omega

end Common

variable {old new : Bytes}

/-- How many lines two contents have together. -/
def total (old new : Bytes) : Nat := (Lines.lines old).length + (Lines.lines new).length

/-- Two contents are alike if all lines of both are in common, but for one line in 2⁵⁴ at most. -/
def AreAlike (old new : Bytes) : Prop :=
  2 ^ 54 * (total old new - 2 * common (Lines.lines old) (Lines.lines new)) ≤ total old new

/-- Twice the lines that contents have in common are no more than the lines that they have together. -/
theorem two_mul_common_lines_le (old new : Bytes) : 2 * common (Lines.lines old) (Lines.lines new) ≤ total old new :=
  two_mul_common_le _ _

/-- Contents of fewer than 2⁵⁴ lines are alike exactly if they have the same lines in some order. -/
theorem areAlike_iff_perm (h : total old new < 2 ^ 54) :
    AreAlike old new ↔ (Lines.lines old).Perm (Lines.lines new) := by
  have hle := two_mul_common_lines_le old new
  rw [← two_mul_common_eq_iff, AreAlike]
  change _ ↔ 2 * common (Lines.lines old) (Lines.lines new) = total old new
  omega

/-- A content is like itself. -/
theorem areAlike_self (content : Bytes) : AreAlike content content := by
  have hcommon : 2 * common (Lines.lines content) (Lines.lines content) = total content content :=
    (two_mul_common_eq_iff _ _).2 (List.Perm.refl _)
  rw [AreAlike, hcommon, Nat.sub_self, Nat.mul_zero]
  exact Nat.zero_le _

/-- The similarity of contents without lines is 1. -/
theorem similarity_of_total_eq_zero (h : total old new = 0) : similarity old new = .ofInt 1 := by
  rw [similarity, ofLines]
  exact if_pos h

/-- The similarity of contents with lines is a ratio of at most one. -/
theorem similarity_eq_ofRatio (h : total old new ≠ 0) :
    similarity old new =
      Binary64.ofRatio false (2 * common (Lines.lines old) (Lines.lines new)) (total old new) := by
  rw [similarity, ofLines]
  exact if_neg h

/-- The similarity of contents is 1 exactly if they are alike. -/
theorem similarity_eq_one_iff (old new : Bytes) : similarity old new = .ofInt 1 ↔ AreAlike old new := by
  by_cases hzero : total old new = 0
  · exact iff_of_true (similarity_of_total_eq_zero hzero) (by rw [AreAlike, hzero]; omega)
  · rw [similarity_eq_ofRatio hzero, AreAlike]
    exact (Binary64.ofRatio_eq_one_iff (Nat.pos_of_ne_zero hzero) (two_mul_common_lines_le old new)).2

/-- A similarity that is not 1 is below it. -/
theorem similarity_lt_one_iff (old new : Bytes) :
    (similarity old new).lt (.ofInt 1) = true ↔ similarity old new ≠ .ofInt 1 := by
  by_cases hzero : total old new = 0
  · rw [similarity_of_total_eq_zero hzero, Binary64.ofInt_one]
    simp [Binary64.lt]
  · rw [similarity_eq_ofRatio hzero]
    exact Binary64.ofRatio_lt_one_iff (Nat.pos_of_ne_zero hzero) (two_mul_common_lines_le old new)

end Hotspots.LineOverlap
