import Hotspots.Proofs.History.AlikeContents
import Hotspots.Proofs.Number.WholeRatio
import Hotspots.Proofs.Text.SplitLines

/-!
# The overlap ratio of two contents

The similarity of two contents is the share that the lines in common have among all lines, rounded once, and depends on
the multisets of lines alone. So it does not matter which content comes first, the similarity is from 0 to 1, it is 1 for
equal multisets and 0 for disjoint ones and for no others, and a line that is put in front of both contents does not
lower it (`similarity_is_ratio`).
-/

namespace Hotspots.LineOverlap

/-! ## What two lists have in common -/

section Common

variable {α : Type} [BEq α] [LawfulBEq α]

/-- An element in front of both lists is one more that they have in common. -/
theorem common_cons_cons (a : α) (as bs : List α) : common (a :: as) (a :: bs) = common as bs + 1 := by
  rw [common, if_pos (List.contains_iff_mem.2 List.mem_cons_self), List.erase_cons_head]

variable [DecidableEq α]

/-- Two lists have the same in common, whichever comes first. -/
theorem common_comm (as bs : List α) : common as bs = common bs as := by
  rw [common_eq_card_inter, common_eq_card_inter, Multiset.inter_comm]

/-- Two lists have nothing in common exactly if they are disjoint. -/
theorem common_eq_zero_iff (as bs : List α) : common as bs = 0 ↔ Disjoint (as : Multiset α) (bs : Multiset α) := by
  rw [common_eq_card_inter, Multiset.card_eq_zero, Multiset.inter_eq_zero_iff_disjoint]

end Common

/-! ## The ratio -/

variable {a b line : Bytes}

/-- The lines of a content, counted with multiplicity. -/
def lineMultiset (content : Bytes) : Multiset Bytes := (Lines.lines content : Multiset Bytes)

/-- Two contents have no lines exactly if both multisets of lines are empty. -/
theorem total_eq_zero_iff : total a b = 0 ↔ lineMultiset a = 0 ∧ lineMultiset b = 0 := by
  rw [total, Nat.add_eq_zero_iff, List.length_eq_zero_iff, List.length_eq_zero_iff, lineMultiset, lineMultiset,
    Multiset.coe_eq_zero, Multiset.coe_eq_zero]

/-- Doubling the number of lines in common and dividing it gives the similarity: only the quotient is rounded. -/
theorem similarity_eq_div (hfew : total a b < 2 ^ 53) (hne : total a b ≠ 0) :
    similarity a b =
      ((Binary64.ofInt 2).mul (.ofInt (lineMultiset a ∩ lineMultiset b).card)).div (.ofInt (total a b)) := by
  have hle := two_mul_common_lines_le a b
  have hinter : (lineMultiset a ∩ lineMultiset b).card = common (Lines.lines a) (Lines.lines b) :=
    (common_eq_card_inter _ _).symm
  have hdouble : (Binary64.ofInt 2).mul (.ofInt (common (Lines.lines a) (Lines.lines b))) =
      .ofInt (2 * common (Lines.lines a) (Lines.lines b) : Nat) :=
    Binary64.mul_ofInt (n := 2) (by decide) (by omega) (by omega)
  rw [similarity_eq_ofRatio hne, hinter, hdouble, Binary64.div_ofInt (by omega) (Nat.pos_of_ne_zero hne) hfew]

/-- It does not matter which content comes first. -/
theorem similarity_comm (a b : Bytes) : similarity a b = similarity b a := by
  rw [similarity, similarity, ofLines, ofLines, common_comm, Nat.add_comm]

/-- A similarity has units from none to those of one. -/
theorem similarity_units (a b : Bytes) : ∃ units ≤ Binary64.one, similarity a b = .finite false units := by
  by_cases hzero : total a b = 0
  · exact ⟨Binary64.one, le_rfl, by rw [similarity_of_total_eq_zero hzero, Binary64.ofInt_one]⟩
  · rw [similarity_eq_ofRatio hzero]
    exact (Binary64.ofRatio_eq_one_iff (Nat.pos_of_ne_zero hzero) (two_mul_common_lines_le a b)).1

/-- A similarity is a number. -/
theorem isNaN_similarity (a b : Bytes) : (similarity a b).isNaN = false := by
  obtain ⟨units, -, hunits⟩ := similarity_units a b
  rw [hunits]
  rfl

/-- A similarity is from zero to one. -/
theorem similarity_mem_range (a b : Bytes) :
    Binary64.zero.le (similarity a b) = true ∧ (similarity a b).le (.ofInt 1) = true := by
  obtain ⟨units, hle, hunits⟩ := similarity_units a b
  rw [hunits, Binary64.ofInt_one]
  refine ⟨Binary64.zero_le_finite_iff.2 (.inl rfl), (DenseRank.real_le_iff rfl rfl).2 ?_⟩
  rw [Binary64.place, Binary64.place, WithBot.coe_le_coe, WithTop.coe_le_coe]
  exact Int.ofNat_le.2 hle

/-- A similarity is 1 exactly if both contents have the same lines equally often. -/
theorem similarity_eq_one_iff_lineMultiset (hfew : total a b < 2 ^ 53) :
    (similarity a b).eq (.ofInt 1) = true ↔ lineMultiset a = lineMultiset b := by
  obtain ⟨units, -, hunits⟩ := similarity_units a b
  have hself : (similarity a b).eq (.ofInt 1) = true ↔ similarity a b = .ofInt 1 := by
    rw [hunits, Binary64.ofInt_one, Binary64.finite_eq_iff, Binary64.finite.injEq]
    exact (and_iff_right rfl).symm
  rw [hself, similarity_eq_one_iff, areAlike_iff_perm (by omega), lineMultiset, lineMultiset, Multiset.coe_eq_coe]

/-- A similarity is 0 exactly if the contents have no line in common, but one of them has lines. -/
theorem similarity_eq_zero_iff (hfew : total a b < 2 ^ 53) :
    (similarity a b).eq .zero = true ↔
      Disjoint (lineMultiset a) (lineMultiset b) ∧ ¬(lineMultiset a = 0 ∧ lineMultiset b = 0) := by
  obtain ⟨units, -, hunits⟩ := similarity_units a b
  have hnone : (similarity a b).eq .zero = true ↔ units = 0 := by
    rw [hunits, Binary64.zero, Binary64.finite_eq_iff]
  rw [hnone, ← total_eq_zero_iff]
  by_cases hzero : total a b = 0
  · rw [similarity_of_total_eq_zero hzero, Binary64.ofInt_one, Binary64.finite.injEq] at hunits
    exact iff_of_false (fun h => DenseRank.one_pos.ne' (by rw [hunits.2, h]; rfl)) fun h => h.2 hzero
  · rw [similarity_eq_ofRatio hzero] at hunits
    rw [Binary64.units_of_ofRatio hunits,
      Binary64.roundUnits_eq_zero_iff (Nat.pos_of_ne_zero hzero) (Binary64.le_one_of_lt hfew), Nat.mul_eq_zero,
      or_iff_right two_ne_zero, common_eq_zero_iff]
    exact (and_iff_left hzero).symm

/-! ## A line in front of both contents -/

/-- With a line in front of both, contents have one line more in common and two more together. -/
theorem similarity_of_line (hline : Lines.IsPlain line) (a b : Bytes) :
    similarity (line ++ ([10] ++ a)) (line ++ ([10] ++ b)) =
      Binary64.ofRatio false (2 * (common (Lines.lines a) (Lines.lines b) + 1)) (total a b + 2) := by
  have hlines : ∀ content, Lines.lines (line ++ ([10] ++ content)) = line :: Lines.lines content := fun content =>
    Lines.lines_append hline (.lineFeed content)
  have htotal : total (line ++ ([10] ++ a)) (line ++ ([10] ++ b)) = total a b + 2 := by
    rw [total, hlines, hlines, List.length_cons, List.length_cons, total]
    omega
  rw [similarity_eq_ofRatio (by omega), htotal, hlines, hlines, common_cons_cons]

/-- A line in front of both contents does not lower their similarity. -/
theorem similarity_le_of_line (hline : Lines.IsPlain line) (a b : Bytes) :
    (similarity a b).le (similarity (line ++ ([10] ++ a)) (line ++ ([10] ++ b))) = true := by
  have hle := two_mul_common_lines_le a b
  rw [similarity_of_line hline]
  by_cases hzero : total a b = 0
  · -- Contents without lines have the similarity 1, and so have contents of the one line.
    rw [similarity_of_total_eq_zero hzero, hzero]
    exact Binary64.ofRatio_le (n := 1) Nat.one_pos (by omega) (by omega)
  · rw [similarity_eq_ofRatio hzero]
    refine Binary64.ofRatio_le (Nat.pos_of_ne_zero hzero) (by omega) ?_
    rw [Nat.mul_add, Nat.mul_add, Nat.add_mul]
    omega

/-! ## The law -/

/-- The lines of a content are what it splits into at line feeds, carriage returns and pairs of both. For contents of
fewer than 2⁵³ lines together the similarity is twice the number of lines in common, with multiplicity, divided by the
number of all lines; it is the same whichever content comes first; it is from 0 to 1; it is 1 exactly if the multisets of
lines are equal, and 0 exactly if they are disjoint and not both empty; and a complete line in front of both contents
does not lower it. -/
theorem similarity_is_ratio (hfew : total a b < 2 ^ 53) :
    (∀ content ls, Lines.Splits content ls ↔ ls = Lines.lines content) ∧
    (total a b ≠ 0 → similarity a b =
      ((Binary64.ofInt 2).mul (.ofInt (lineMultiset a ∩ lineMultiset b).card)).div (.ofInt (total a b))) ∧
    similarity a b = similarity b a ∧
    (Binary64.zero.le (similarity a b) = true ∧ (similarity a b).le (.ofInt 1) = true) ∧
    ((similarity a b).eq (.ofInt 1) = true ↔ lineMultiset a = lineMultiset b) ∧
    ((similarity a b).eq .zero = true ↔
      Disjoint (lineMultiset a) (lineMultiset b) ∧ ¬(lineMultiset a = 0 ∧ lineMultiset b = 0)) ∧
    ∀ line, Lines.IsPlain line →
      (similarity a b).le (similarity (line ++ ([10] ++ a)) (line ++ ([10] ++ b))) = true :=
  ⟨fun _ _ => Lines.splits_iff, similarity_eq_div hfew, similarity_comm a b, similarity_mem_range a b,
    similarity_eq_one_iff_lineMultiset hfew, similarity_eq_zero_iff hfew, fun _ hline => similarity_le_of_line hline a b⟩

/-- The lines x, y and x with three ends: a pair, a carriage return and none. -/
def mixedEnds : Bytes := [120, 13, 10, 121, 13, 120]

/-- The lines x and z, of which the first ends with a line feed. -/
def otherEnds : Bytes := [120, 10, 122]

/-- Contents of five lines together that have one in common are neither disjoint nor equal, and the line w in front of
both does not lower their similarity. -/
theorem similarity_of_mixed_ends :
    (total mixedEnds otherEnds < 2 ^ 53 ∧ total mixedEnds otherEnds ≠ 0 ∧ Lines.IsPlain [119]) ∧
    Lines.Splits mixedEnds [[120], [121], [120]] ∧
    similarity mixedEnds otherEnds = ((Binary64.ofInt 2).mul (.ofInt 1)).div (.ofInt 5) ∧
    similarity mixedEnds otherEnds = similarity otherEnds mixedEnds ∧
    (similarity mixedEnds otherEnds).eq .zero ≠ true ∧ (similarity mixedEnds otherEnds).eq (.ofInt 1) ≠ true ∧
    (similarity mixedEnds otherEnds).le (similarity ([119] ++ ([10] ++ mixedEnds)) ([119] ++ ([10] ++ otherEnds))) =
      true := by
  have hfew : total mixedEnds otherEnds < 2 ^ 53 := by decide
  have hne : total mixedEnds otherEnds ≠ 0 := by decide
  have hplain : Lines.IsPlain [119] := by simp [Lines.IsPlain]
  have hshared : [120] ∈ lineMultiset mixedEnds ∧ [120] ∈ lineMultiset otherEnds := by decide
  obtain ⟨hsplits, hratio, hcomm, -, hone, hzero, hline⟩ := similarity_is_ratio hfew
  refine ⟨⟨hfew, hne, hplain⟩, (hsplits _ _).2 rfl, hratio hne, hcomm, fun h => ?_, fun h => ?_, hline _ hplain⟩
  · exact Multiset.disjoint_left.1 (hzero.1 h).1 hshared.1 hshared.2
  · exact absurd (congrArg Multiset.card (hone.1 h)) (by decide)

end Hotspots.LineOverlap
