import Hotspots.Proofs.Number.FiniteRange
import Hotspots.Proofs.Ranking.Entries

/-!
# Tiers respect both axes unless a sum wraps

A file that was changed at least as often as another and scores at least as high has no larger ranks, so that
its weighted sum is no larger. Its tier is no larger exactly when the same holds of the sums as machine words
hold them (`respectsAxes_iff`); whole weights are not bounded by their number of bits alone, and with large
ones the sum of a healthy file that is hardly touched can wrap around and bring it to the top.
-/

namespace Hotspots.Worklist

/-- An entry that is changed at least as often as another and scores at least as high has no larger tier. -/
def RespectsAxes (list : List WorkItem) : Prop :=
  ∀ a ∈ list, ∀ b ∈ list, b.changeCount ≤ a.changeCount → b.score.le a.score = true →
    a.priority ≤ b.priority

/-- The weighted sum of the ranks of an entry, of any size. -/
def weightedSum (change disharmony : Int) (i : WorkItem) : Int :=
  change * i.changeRank + disharmony * i.disharmonyRank

/-! ## The three orders -/

variable {cs : List Candidate} {a b : Candidate}

/-- Real values stand in the order of their places, from the greatest. -/
theorem fallingStanding_le_iff {x y : Binary64} (hx : x.isNaN = false) (hy : y.isNaN = false) :
    (Number.real x).fallingStanding ≤ (Number.real y).fallingStanding ↔ y.place ≤ x.place := by
  simp [Number.fallingStanding, Number.standing, DenseRank.isNaN, hx, hy, Number.place]

/-- The real number nearest to a count of few bits has the place of the count. -/
theorem place_nearest_changeCount {c : Candidate} (h : c.changeCount < 2 ^ 53) :
    (DenseRank.nearest (.whole c.changeCount)).place = (Number.whole c.changeCount).place ∧
      (DenseRank.nearest (.whole c.changeCount)).isNaN = false := by
  have hpos : 0 ≤ c.changeCount := by unfold Candidate.changeCount; omega
  have hnearest : DenseRank.nearest (.whole c.changeCount) =
      .finite false (c.changeCount.toNat * Binary64.one) := by
    rw [DenseRank.nearest, DenseRank.realOf, Binary64.ofInt_eq hpos h]
    rfl
  have hcast : ((c.changeCount.toNat * Binary64.one : Nat) : Int) = c.changeCount * Binary64.one := by
    rw [Int.natCast_mul, Int.toNat_of_nonneg hpos]
  rw [hnearest]
  refine ⟨?_, rfl⟩
  simp only [Number.place, Binary64.place, Binary64.signedUnits, Bool.false_eq_true, if_false, hcast]

/-- Counts of few bits stand in their order, from the greatest. -/
theorem changeStanding_le_iff (ha : a.changeCount < 2 ^ 53) (hb : b.changeCount < 2 ^ 53) :
    changeStanding a ≤ changeStanding b ↔ b.changeCount ≤ a.changeCount := by
  obtain ⟨haPlace, haNumber⟩ := place_nearest_changeCount ha
  obtain ⟨hbPlace, hbNumber⟩ := place_nearest_changeCount hb
  rw [changeStanding, changeStanding, fallingStanding_le_iff haNumber hbNumber, haPlace, hbPlace]
  simp only [Number.place, WithBot.coe_le_coe, WithTop.coe_le_coe]
  exact Int.mul_le_mul_right DenseRank.one_pos

/-- Scores that are numbers stand in their order, from the greatest. -/
theorem scoreStanding_le_iff (ha : a.finding.score.isNaN = false) (hb : b.finding.score.isNaN = false) :
    scoreStanding a ≤ scoreStanding b ↔ b.finding.score.le a.finding.score = true := by
  rw [scoreStanding, scoreStanding, fallingStanding_le_iff ha hb, DenseRank.real_le_iff hb ha]

/-- Ranks by churn are ordered against the counts. -/
theorem changeRankOf_le_iff (hcounts : ∀ c ∈ cs, c.changeCount < 2 ^ 53) (ha : a ∈ cs) (hb : b ∈ cs) :
    changeRankOf cs a ≤ changeRankOf cs b ↔ b.changeCount ≤ a.changeCount := by
  rw [changeRankOf, changeRankOf, DenseRank.rankOf_le_iff ha hb, changeStanding_le_iff (hcounts a ha) (hcounts b hb)]

/-- Ranks by score are ordered against the scores. -/
theorem disharmonyRankOf_le_iff (hscores : ∀ c ∈ cs, c.finding.score.isNaN = false) (ha : a ∈ cs)
    (hb : b ∈ cs) :
    disharmonyRankOf cs a ≤ disharmonyRankOf cs b ↔ b.finding.score.le a.finding.score = true := by
  rw [disharmonyRankOf, disharmonyRankOf, DenseRank.rankOf_le_iff ha hb,
    scoreStanding_le_iff (hscores a ha) (hscores b hb)]

/-- A sum of whole weights is a machine word. -/
theorem combined_whole (wc wd : Int) (r d : Nat) :
    combined ⟨.whole wc, .whole wd⟩ r d = .whole (wrap (wc * r + wd * d)) := by
  simp only [combined, weighted, plus, wrap, Int.bmod_add_bmod, Int.add_bmod_bmod]

/-- Integers stand in their order. -/
theorem standing_whole_lt_iff (i j : Int) : (Number.whole i).standing < (Number.whole j).standing ↔ i < j := by
  have hstanding : ∀ i : Int, (Number.whole i).standing = ((Number.whole i).place : WithTop (WithBot (WithTop Int))) :=
    fun _ => rfl
  rw [hstanding, hstanding, WithTop.coe_lt_coe, Number.place, Number.place, WithBot.coe_lt_coe, WithTop.coe_lt_coe]
  exact Int.mul_lt_mul_right DenseRank.one_pos

/-- Tiers are ordered as the sums that machine words hold. -/
theorem priorityOf_le_iff (wc wd : Int) (ha : a ∈ cs) (hb : b ∈ cs) :
    priorityOf ⟨.whole wc, .whole wd⟩ cs a ≤ priorityOf ⟨.whole wc, .whole wd⟩ cs b ↔
      wrap (wc * changeRankOf cs a + wd * disharmonyRankOf cs a) ≤
        wrap (wc * changeRankOf cs b + wd * disharmonyRankOf cs b) := by
  rw [priorityOf, priorityOf, DenseRank.rankOf_le_iff ha hb, sumStanding, sumStanding, combined_whole, combined_whole,
    ← not_lt, standing_whole_lt_iff, not_lt]

/-! ## When a work-list is returned -/

/-- An integer is ranked as the real number nearest to it, if that is finite. -/
theorem exists_realOf_whole_iff {i : Int} :
    (∃ x, DenseRank.realOf (.whole i) = .ok x) ↔ (Binary64.ofInt i).isFinite = true := by
  rw [DenseRank.realOf, Binary64.ofInt, Binary64.ofRatio, Binary64.ofUnitRatio]
  split
  · exact iff_of_false (by simp [DenseRank.inRange]) Bool.false_ne_true
  · exact iff_of_true ⟨_, rfl⟩ rfl

/-- Values are ranked exactly if all of them are in range. -/
theorem exists_descending_iff {values : List Number} :
    (∃ ranks, DenseRank.descending values = .ok ranks) ↔ ∀ v ∈ values, ∃ x, DenseRank.realOf v = .ok x := by
  rw [← exists_mapM_eq_ok_iff]
  constructor
  · rintro ⟨ranks, h⟩
    obtain ⟨reals, hreals, -⟩ := bind_eq_ok.1 h
    exact ⟨reals, hreals⟩
  · rintro ⟨reals, hreals⟩
    exact ⟨_, bind_eq_ok.2 ⟨reals, hreals, rfl⟩⟩

/-- Candidates are ranked exactly if their counts are in range and the weights fit in machine words. -/
theorem exists_ofCandidates_iff {cs : List Candidate} {w : Weights} : (∃ list, ofCandidates w cs = .ok list) ↔
    (∀ c ∈ cs, (Binary64.ofInt c.changeCount).isFinite = true) ∧
      checkWeight w.change = .ok () ∧ checkWeight w.disharmony = .ok () := by
  have hcounts : (∃ change, DenseRank.descending (cs.map fun c => .whole c.changeCount) = .ok change) ↔
      ∀ c ∈ cs, (Binary64.ofInt c.changeCount).isFinite = true := by
    simp only [exists_descending_iff, List.forall_mem_map, exists_realOf_whole_iff]
  rw [← hcounts]
  constructor
  · rintro ⟨list, hlist⟩
    obtain ⟨ranks, hranks, -⟩ := bind_eq_ok.1 hlist
    obtain ⟨change, hchange, hranks⟩ := bind_eq_ok.1 hranks
    obtain ⟨_, -, hranks⟩ := bind_eq_ok.1 hranks
    obtain ⟨_, hchangeWeight, hranks⟩ := bind_eq_ok.1 hranks
    obtain ⟨_, hdisharmonyWeight, -⟩ := bind_eq_ok.1 hranks
    exact ⟨⟨change, hchange⟩, hchangeWeight, hdisharmonyWeight⟩
  · rintro ⟨⟨change, hchange⟩, hchangeWeight, hdisharmonyWeight⟩
    obtain ⟨disharmony, hdisharmony⟩ : ∃ ranks,
        DenseRank.descending (cs.map fun c => .real c.finding.score) = .ok ranks :=
      exists_descending_iff.2 (List.forall_mem_map.2 fun c _ => ⟨c.finding.score, rfl⟩)
    obtain ⟨ranks, hranks⟩ : ∃ ranks, ranksOf w cs = .ok ranks :=
      ⟨_, bind_eq_ok.2 ⟨change, hchange, bind_eq_ok.2 ⟨disharmony, hdisharmony,
        bind_eq_ok.2 ⟨(), hchangeWeight, bind_eq_ok.2 ⟨(), hdisharmonyWeight, rfl⟩⟩⟩⟩⟩
    exact ⟨_, bind_eq_ok.2 ⟨ranks, hranks, rfl⟩⟩

/-- Counts that fit in machine words are in range. -/
theorem isFinite_changeCount {c : Candidate} (h : c.record.changeCount < 2 ^ 64) :
    (Binary64.ofInt c.changeCount).isFinite = true := by
  refine Binary64.isFinite_ofInt (k := 64) (by decide) ?_
  unfold Candidate.changeCount
  omega

/-- A work-list is returned exactly if there are no candidates or they are ranked. -/
theorem exists_returns_rank_iff {σ : Type} [HasSession σ] {churn : List (FileIdentity × ChurnRecord)}
    {scores : List (FileIdentity × Option Finding)} {w : Weights} (s : σ) :
    (∃ list s', (rank churn scores w).Returns s list s') ↔
      candidates churn scores = [] ∨ ∃ list, ofCandidates w (candidates churn scores) = .ok list := by
  unfold rank
  split
  · next hnone => exact iff_of_true ⟨[], s, Run.returns_pure.2 ⟨rfl, rfl⟩⟩ (.inl hnone)
  · next hsome =>
    refine ⟨fun ⟨_, _, h⟩ => ?_, fun h => ?_⟩
    · obtain ⟨list, _, hlist, -⟩ := Run.returns_bind.1 h
      exact .inr ⟨list, (Run.returns_ofFault.1 hlist).1⟩
    · obtain ⟨list, hlist⟩ := h.resolve_left hsome
      exact ⟨_, _, Run.returns_bind.2 ⟨list, s, Run.returns_ofFault.2 ⟨hlist, rfl⟩,
        Run.returns_bind.2 ⟨(), _, Run.returns_log.2 rfl, Run.returns_pure.2 ⟨rfl, rfl⟩⟩⟩⟩

/-- A work-list is returned if the counts have few bits and the weights fit in machine words. -/
theorem exists_returns_rank {σ : Type} [HasSession σ] {churn : List (FileIdentity × ChurnRecord)}
    {w : Weights} (hcounts : ∀ e ∈ churn, e.2.changeCount < 2 ^ 53) (hchange : checkWeight w.change = .ok ())
    (hdisharmony : checkWeight w.disharmony = .ok ()) (scores : List (FileIdentity × Option Finding))
    (s : σ) : ∃ list s', (rank churn scores w).Returns s list s' := by
  refine (exists_returns_rank_iff s).2 (.inr (exists_ofCandidates_iff.2 ⟨fun c hc => ?_, hchange, hdisharmony⟩))
  exact isFinite_changeCount
    (Int.lt_trans (hcounts _ (Record.mem_of_get? (mem_candidates.1 hc).2.1)) (by decide))

/-! ## Sums that fit -/

/-- A sum of non-negative weights is at most both weights times the largest rank. -/
theorem weightedSum_le {wc wd : Int} (hwc : 0 ≤ wc) (hwd : 0 ≤ wd) {r d n : Nat} (hr : r < n) (hd : d < n) :
    0 ≤ wc * r + wd * d ∧ wc * r + wd * d ≤ (wc + wd) * (n - 1) := by
  constructor
  · exact Int.add_nonneg (Int.mul_nonneg hwc (Int.natCast_nonneg r))
      (Int.mul_nonneg hwd (Int.natCast_nonneg d))
  · have hchange : wc * r ≤ wc * (n - 1) := Int.mul_le_mul_of_nonneg_left (by omega) hwc
    have hdisharmony : wd * d ≤ wd * (n - 1) := Int.mul_le_mul_of_nonneg_left (by omega) hwd
    rw [Int.add_mul]
    omega

/-- A sum that fits in a machine word is kept. -/
theorem wrap_eq {i : Int} (hnonneg : 0 ≤ i) (hfits : i < 2 ^ 63) : wrap i = i :=
  Int.bmod_eq_of_le (by omega) (by omega)

/-! ## The law -/

/-- An entry that was changed at least as often as another and scores at least as high has no larger tier,
exactly when no entry with larger ranks has a smaller sum as machine words hold it; and there is none as long
as the weights times the number of entries fit in a machine word. -/
theorem respectsAxes_iff {σ : Type} [HasSession σ] {churn : List (FileIdentity × ChurnRecord)}
    {scores : List (FileIdentity × Option Finding)} {wc wd : Int} (hwc : 0 ≤ wc) (hwd : 0 ≤ wd)
    (hcounts : ∀ e ∈ churn, e.2.changeCount < 2 ^ 53)
    (hscores : ∀ identity finding, (identity, some finding) ∈ scores → finding.score.isNaN = false)
    {s s' : σ} {list : List WorkItem}
    (hreturns : (rank churn scores ⟨.whole wc, .whole wd⟩).Returns s list s') :
    (RespectsAxes list ↔ ∀ a ∈ list, ∀ b ∈ list, a.changeRank ≤ b.changeRank →
      a.disharmonyRank ≤ b.disharmonyRank → wrap (weightedSum wc wd a) ≤ wrap (weightedSum wc wd b)) ∧
    ((wc + wd) * (list.length - 1) < 2 ^ 63 → RespectsAxes list) := by
  have hperm := perm_of_returns_rank hreturns
  generalize hcs : candidates churn scores = cs at hperm
  have hcount : ∀ c ∈ cs, c.changeCount < 2 ^ 53 := by
    intro c hc
    obtain ⟨-, hrecord, -⟩ := mem_candidates.1 (hcs ▸ hc)
    have hbound : c.record.changeCount < 2 ^ 53 := hcounts _ (Record.mem_of_get? hrecord)
    unfold Candidate.changeCount
    omega
  have hscore : ∀ c ∈ cs, c.finding.score.isNaN = false := fun c hc =>
    hscores _ _ (mem_candidates.1 (hcs ▸ hc)).1
  have hiff : RespectsAxes list ↔ ∀ a ∈ list, ∀ b ∈ list, a.changeRank ≤ b.changeRank →
      a.disharmonyRank ≤ b.disharmonyRank → wrap (weightedSum wc wd a) ≤ wrap (weightedSum wc wd b) := by
    simp only [RespectsAxes, hperm.mem_iff, List.forall_mem_map]
    refine forall₂_congr fun a ha => forall₂_congr fun b hb => ?_
    have hchange := changeRankOf_le_iff hcount ha hb
    have hdisharmony := disharmonyRankOf_le_iff hscore ha hb
    have hpriority := priorityOf_le_iff wc wd ha hb
    simp only [entryOf, item, weightedSum, Int.ofNat_le, hchange, hdisharmony, hpriority]
  have hsum : ∀ i ∈ list, 0 ≤ weightedSum wc wd i ∧
      weightedSum wc wd i ≤ (wc + wd) * (list.length - 1) := by
    intro i hi
    obtain ⟨c, hc, rfl⟩ := List.mem_map.1 (hperm.mem_iff.1 hi)
    rw [hperm.length_eq, List.length_map]
    exact weightedSum_le hwc hwd (DenseRank.rankOf_lt_length hc) (DenseRank.rankOf_lt_length hc)
  refine ⟨hiff, fun hfits => hiff.2 fun a ha b hb hchange hdisharmony => ?_⟩
  obtain ⟨haPos, haBound⟩ := hsum a ha
  obtain ⟨hbPos, hbBound⟩ := hsum b hb
  rw [wrap_eq haPos (by omega), wrap_eq hbPos (by omega)]
  exact Int.add_le_add (Int.mul_le_mul_of_nonneg_left hchange hwc)
    (Int.mul_le_mul_of_nonneg_left hdisharmony hwd)

/-! ## Three files -/

/-- The record of a file that was changed a number of times. -/
def sampleRecord (uid : Int) (path : String) (count : Int) : ChurnRecord :=
  { identity := { uid := uid, path := path }
    changeCount := count
    firstModified := 0
    lastModified := 0 }

/-- Three files that are equally unhealthy, changed three times, twice and once. -/
def sampleCandidates : List Candidate :=
  [sampleRecord 0 "a" 3, sampleRecord 1 "b" 2, sampleRecord 2 "c" 1].map fun r =>
    ⟨r.identity, r, { rule := "god-class", score := .zero, subject := "C", line := 1, metrics := [] }⟩

/-- The churn of the three files. -/
def sampleChurn : List (FileIdentity × ChurnRecord) := sampleCandidates.map fun c => (c.identity, c.record)

/-- The findings of the three files. -/
def sampleScores : List (FileIdentity × Option Finding) :=
  sampleCandidates.map fun c => (c.identity, some c.finding)

/-- The three files are candidates in the order of their paths. -/
theorem candidates_sample : candidates sampleChurn sampleScores = sampleCandidates := by
  have hfilter : (sampleScores.filterMap fun e => candidate? sampleChurn e.1 e.2) = sampleCandidates := rfl
  rw [candidates, hfilter]
  exact List.mergeSort_of_pairwise (by decide +kernel)

/-- With small weights the tiers of the three files respect both axes. -/
theorem respectsAxes_of_small_weights :
    (∀ e ∈ sampleChurn, e.2.changeCount < 2 ^ 53) ∧
      (∀ identity finding, (identity, some finding) ∈ sampleScores → finding.score.isNaN = false) ∧
      ∃ list s', (rank sampleChurn sampleScores ⟨.whole 3, .whole 2⟩).Returns ({} : Session) list s' ∧
        list.length = 3 ∧ RespectsAxes list := by
  have hcounts : ∀ e ∈ sampleChurn, e.2.changeCount < 2 ^ 53 := by decide
  have hscores : ∀ identity finding, (identity, some finding) ∈ sampleScores →
      finding.score.isNaN = false := by
    intro identity finding h
    obtain ⟨c, hc, heq⟩ := List.mem_map.1 h
    obtain ⟨r, -, rfl⟩ := List.mem_map.1 hc
    cases heq
    rfl
  obtain ⟨list, s', hlist⟩ := exists_returns_rank (w := ⟨.whole 3, .whole 2⟩) hcounts rfl rfl
    sampleScores ({} : Session)
  have hlength : list.length = 3 := by
    rw [(perm_of_returns_rank hlist).length_eq, List.length_map, candidates_sample]
    rfl
  refine ⟨hcounts, hscores, list, s', hlist, hlength, ?_⟩
  refine (respectsAxes_iff (by decide) (by decide) hcounts hscores hlist).2 ?_
  rw [hlength]
  decide

/-- With a weight of 2⁶² the sum of the file that was changed least wraps around, and its tier is the most
urgent. -/
theorem not_respectsAxes_of_large_weight :
    ∃ list s', (rank sampleChurn sampleScores ⟨.whole (2 ^ 62), .whole 1⟩).Returns ({} : Session) list s' ∧
      ¬RespectsAxes list := by
  have hcounts : ∀ e ∈ sampleChurn, e.2.changeCount < 2 ^ 53 := by decide
  obtain ⟨list, s', hlist⟩ := exists_returns_rank (w := ⟨.whole (2 ^ 62), .whole 1⟩) hcounts rfl rfl
    sampleScores ({} : Session)
  refine ⟨list, s', hlist, fun hlaw => ?_⟩
  have hperm := perm_of_returns_rank hlist
  rw [candidates_sample] at hperm
  have hmem : ∀ i (hi : i < sampleCandidates.length),
      entryOf ⟨.whole (2 ^ 62), .whole 1⟩ sampleCandidates (sampleCandidates.get ⟨i, hi⟩) ∈ list :=
    fun i hi => hperm.mem_iff.2 (List.mem_map_of_mem (List.get_mem _ _))
  have hinverted := hlaw _ (hmem 0 (by decide)) _ (hmem 2 (by decide)) (by decide) (by decide)
  revert hinverted
  decide +kernel

end Hotspots.Worklist
