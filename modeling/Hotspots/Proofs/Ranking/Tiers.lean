import Hotspots.Proofs.Ranking.DenseCount
import Hotspots.Proofs.Ranking.WeightedTiers
import Hotspots.Proofs.Record.Sorted
import Mathlib.Data.Prod.Lex
import Mathlib.Data.String.Basic

/-!
# The tiers of a work-list

The tiers of a work-list are 0 up to some number, and none of them is empty: they are the dense ranks of the weighted
sums. The list is in the order of tiers, paths and uids, and is the same however the churn and the findings are listed,
unless two files have the same path and uid. While no sum of whole weights wraps around, the tier of a file is the
number of different smaller sums (`tiers_of_rank`).
-/

namespace Hotspots

/-- The path and the uid of an identity, by which identities are ordered. -/
def FileIdentity.sortKey (i : FileIdentity) : Lex (String × Int) := toLex (i.path, i.uid)

/-- The tier, the path and the uid of an entry, by which entries are ordered. -/
def WorkItem.sortKey (i : WorkItem) : Lex (Int × Lex (String × Int)) := toLex (i.priority, i.identity.sortKey)

namespace Worklist

variable {σ : Type} {churn churn' : List (FileIdentity × ChurnRecord)}
  {scores scores' : List (FileIdentity × Option Finding)} {cs : List Candidate} {c : Candidate} {w : Weights}

/-! ## The order of the list -/

/-- Identities are sorted by their keys. -/
theorem precedes_eq (a b : FileIdentity) : precedes a b = decide (a.sortKey ≤ b.sortKey) := by
  rw [Bool.eq_iff_iff, decide_eq_true_eq, FileIdentity.sortKey, FileIdentity.sortKey, Prod.Lex.toLex_le_toLex]
  simp [precedes]

/-- Entries are sorted by their keys. -/
theorem comesBefore_eq (a b : WorkItem) : comesBefore a b = decide (a.sortKey ≤ b.sortKey) := by
  rw [Bool.eq_iff_iff, decide_eq_true_eq, WorkItem.sortKey, WorkItem.sortKey, Prod.Lex.toLex_le_toLex, comesBefore,
    precedes_eq]
  simp

/-- The work-list of candidates is in order. -/
theorem pairwise_ofCandidates {list : List WorkItem} (h : ofCandidates w cs = .ok list) :
    list.Pairwise fun a b => a.sortKey ≤ b.sortKey := by
  obtain ⟨ranks, -, h⟩ := bind_eq_ok.1 h
  cases h
  rw [funext₂ comesBefore_eq]
  exact pairwise_mergeSort_key _ _

/-- A work-list that is returned is in order. -/
theorem pairwise_of_returns_rank [HasSession σ] {s s' : σ} {list : List WorkItem}
    (h : (rank churn scores w).Returns s list s') : list.Pairwise fun a b => a.sortKey ≤ b.sortKey := by
  unfold rank at h
  split at h
  · obtain ⟨rfl, -⟩ := Run.returns_pure.1 h
    exact List.Pairwise.nil
  · obtain ⟨_, _, hlist, h⟩ := Run.returns_bind.1 h
    obtain ⟨_, _, -, h⟩ := Run.returns_bind.1 h
    obtain ⟨rfl, -⟩ := Run.returns_pure.1 h
    exact pairwise_ofCandidates (Run.returns_ofFault.1 hlist).1

/-- Candidates that have different paths or uids are listed in one way, however churn and findings are listed. -/
theorem candidates_eq_of_perm (hkeys : (churn.map Prod.fst).Nodup) (hchurn : churn'.Perm churn)
    (hscores : scores'.Perm scores) (hdistinct : ((candidates churn scores).map fun c => c.identity.sortKey).Nodup) :
    candidates churn' scores' = candidates churn scores := by
  have hsame : (fun e : FileIdentity × Option Finding => candidate? churn' e.1 e.2) =
      fun e => candidate? churn e.1 e.2 := by
    funext e
    simp only [candidate?, Record.get?_eq_of_perm hkeys hchurn]
  have hsorted : ∀ scores, candidates churn scores =
      (scores.filterMap fun e => candidate? churn e.1 e.2).mergeSort
        fun a b => decide (a.identity.sortKey ≤ b.identity.sortKey) := by
    intro scores
    simp only [candidates, precedes_eq]
  have hperm : (candidates churn scores').Perm (candidates churn scores) := by
    rw [hsorted, hsorted]
    exact (List.mergeSort_perm _ _).trans ((hscores.filterMap _).trans (List.mergeSort_perm _ _).symm)
  have horder : ∀ scores, (candidates churn scores).Pairwise fun a b => a.identity.sortKey ≤ b.identity.sortKey := by
    intro scores
    rw [hsorted]
    exact pairwise_mergeSort_key _ _
  have hcandidates : candidates churn' scores' = candidates churn scores' :=
    congrArg (fun g : FileIdentity × Option Finding → Option Candidate =>
      (scores'.filterMap g).mergeSort fun a b => precedes a.identity b.identity) hsame
  rw [hcandidates, eq_mergeSort_of_perm hdistinct hperm (horder scores'),
    ← eq_mergeSort_of_perm hdistinct (List.Perm.refl _) (horder scores)]

/-- Ranking looks at the candidates alone. -/
theorem rank_eq_of_candidates [HasSession σ] (h : candidates churn' scores' = candidates churn scores) :
    (rank churn' scores' w : Run σ (List WorkItem)) = rank churn scores w := by
  rw [rank, rank, h]

/-! ## Tiers as numbers of sums -/

/-- The tiers of candidates are the numbers below some number. -/
theorem exists_priorityOf_iff (w : Weights) (cs : List Candidate) (n : Nat) :
    (∃ c ∈ cs, priorityOf w cs c = n) ↔ n < (cs.map (sumStanding w cs)).toFinset.card :=
  DenseRank.exists_rankOf_iff

/-- The weighted sum of the ranks of a candidate, of any size. -/
def sumOf (wc wd : Int) (cs : List Candidate) (c : Candidate) : Int :=
  wc * changeRankOf cs c + wd * disharmonyRankOf cs c

/-- While no sum wraps around, a tier is the number of different smaller sums. -/
theorem priorityOf_eq_card {wc wd : Int} (hfits : ∀ c ∈ cs, 0 ≤ sumOf wc wd cs c ∧ sumOf wc wd cs c < 2 ^ 63)
    (hc : c ∈ cs) : priorityOf ⟨.whole wc, .whole wd⟩ cs c =
      ((cs.map (sumOf wc wd cs)).toFinset.filter (· < sumOf wc wd cs c)).card := by
  have hstanding : ∀ a ∈ cs, sumStanding ⟨.whole wc, .whole wd⟩ cs a = (Number.whole (sumOf wc wd cs a)).standing := by
    intro a ha
    rw [sumStanding, combined_whole]
    exact congrArg (fun i => (Number.whole i).standing) (wrap_eq (hfits a ha).1 (hfits a ha).2)
  have horder : ∀ a ∈ cs, ∀ b ∈ cs, sumStanding ⟨.whole wc, .whole wd⟩ cs a < sumStanding ⟨.whole wc, .whole wd⟩ cs b ↔
      sumOf wc wd cs a < sumOf wc wd cs b := by
    intro a ha b hb
    rw [hstanding a ha, hstanding b hb, standing_whole_lt_iff]
  exact DenseRank.rankOf_congr horder hc

/-- A sum of non-negative weights is at most both weights times the largest rank. -/
theorem sumOf_le {wc wd : Int} (hwc : 0 ≤ wc) (hwd : 0 ≤ wd) (hc : c ∈ cs) :
    0 ≤ sumOf wc wd cs c ∧ sumOf wc wd cs c ≤ (wc + wd) * (cs.length - 1) :=
  weightedSum_le hwc hwd (DenseRank.rankOf_lt_length hc) (DenseRank.rankOf_lt_length hc)

/-! ## Entries -/

/-- The tiers of the entries of candidates are 0 up to some number below that of the entries. -/
theorem exists_tiers {list : List WorkItem} (hperm : list.Perm (cs.map (entryOf w cs))) (hne : list ≠ []) :
    ∃ k : Nat, k + 1 ≤ list.length ∧ ∀ tier : Int, (∃ i ∈ list, i.priority = tier) ↔ 0 ≤ tier ∧ tier ≤ k := by
  have htiers := exists_priorityOf_iff w cs
  generalize hcount : (cs.map (sumStanding w cs)).toFinset.card = count at htiers
  have hle : count ≤ list.length := by
    rw [hperm.length_eq, List.length_map, ← hcount]
    exact (List.toFinset_card_le _).trans_eq (List.length_map _)
  have htier : ∀ tier : Int, (∃ i ∈ list, i.priority = tier) ↔ ∃ c ∈ cs, (priorityOf w cs c : Int) = tier := by
    intro tier
    simp only [hperm.mem_iff, List.mem_map, exists_exists_and_eq_and]
    rfl
  obtain ⟨i, hi⟩ := List.exists_mem_of_ne_nil list hne
  obtain ⟨c, hc, -⟩ := (htier i.priority).1 ⟨i, hi, rfl⟩
  have hpos := (htiers _).1 ⟨c, hc, rfl⟩
  refine ⟨count - 1, by omega, fun tier => (htier tier).trans ⟨?_, fun ⟨hnonneg, hbound⟩ => ?_⟩⟩
  · rintro ⟨c, hc, rfl⟩
    have hlt := (htiers _).1 ⟨c, hc, rfl⟩
    omega
  · obtain ⟨c, hc, htier⟩ := (htiers tier.toNat).2 (by omega)
    exact ⟨c, hc, by omega⟩

/-- While no sum of the entries of candidates wraps around, the tier of an entry is the number of different smaller
sums. -/
theorem priority_eq_card {wc wd : Int} {list : List WorkItem} (hwc : 0 ≤ wc) (hwd : 0 ≤ wd)
    (hperm : list.Perm (cs.map (entryOf ⟨.whole wc, .whole wd⟩ cs)))
    (hfits : ∀ i ∈ list, weightedSum wc wd i < 2 ^ 63) {i : WorkItem} (hi : i ∈ list) :
    i.priority = ((list.map (weightedSum wc wd)).toFinset.filter (· < weightedSum wc wd i)).card := by
  have hsums : (list.map (weightedSum wc wd)).Perm (cs.map (sumOf wc wd cs)) := by
    have hmap := hperm.map (weightedSum wc wd)
    rw [List.map_map] at hmap
    exact hmap
  have hbounds : ∀ c ∈ cs, 0 ≤ sumOf wc wd cs c ∧ sumOf wc wd cs c < 2 ^ 63 := fun c hc =>
    ⟨(sumOf_le hwc hwd hc).1, hfits _ (hperm.mem_iff.2 (List.mem_map_of_mem hc))⟩
  obtain ⟨c, hc, rfl⟩ := List.mem_map.1 (hperm.mem_iff.1 hi)
  rw [List.toFinset_eq_of_perm _ _ hsums]
  exact congrArg Nat.cast (priorityOf_eq_card hbounds hc)

/-! ## The law -/

/-- Of a work-list that is not empty the tiers are 0 up to some number below that of the entries, and every tier has an
entry. Entries of the same two ranks share a tier; the entries are in the order of tier, path and uid; and if paths or
uids differ, the order of the entries of churn and findings does not matter. With whole weights that are not negative,
and as long as no sum exceeds a signed machine word, the tier of an entry is the number of different smaller sums. For
the default weights no sum does so unless there are more entries than any memory can hold. -/
theorem tiers_of_rank [HasSession σ] {s s' : σ} {list : List WorkItem}
    (hreturns : (rank churn scores w).Returns s list s') (hne : list ≠ []) :
    (∃ k : Nat, k + 1 ≤ list.length ∧ ∀ tier : Int, (∃ i ∈ list, i.priority = tier) ↔ 0 ≤ tier ∧ tier ≤ k) ∧
    (∀ i ∈ list, ∀ j ∈ list, i.changeRank = j.changeRank → i.disharmonyRank = j.disharmonyRank →
      i.priority = j.priority) ∧
    (list.Pairwise fun i j => i.sortKey ≤ j.sortKey) ∧
    ((list.map fun i => (i.identity.path, i.identity.uid)).Nodup → (churn.map Prod.fst).Nodup →
      ∀ churn' scores', churn'.Perm churn → scores'.Perm scores →
        (rank churn' scores' w : Run σ (List WorkItem)) = rank churn scores w) ∧
    (∀ wc wd : Int, w = ⟨.whole wc, .whole wd⟩ → 0 ≤ wc → 0 ≤ wd → (∀ i ∈ list, weightedSum wc wd i < 2 ^ 63) →
      ∀ i ∈ list, i.priority =
        ((list.map (weightedSum wc wd)).toFinset.filter (· < weightedSum wc wd i)).card) ∧
    (list.length ≤ 2 ^ 62 → ∀ i ∈ list, weightedSum 1 1 i < 2 ^ 63) := by
  have hperm := perm_of_returns_rank hreturns
  generalize hcs : candidates churn scores = cs at hperm
  have hlength : list.length = cs.length := by rw [hperm.length_eq, List.length_map]
  have hentries : ∀ {i}, i ∈ list ↔ ∃ c ∈ cs, entryOf w cs c = i := by
    intro i
    rw [hperm.mem_iff, List.mem_map]
  refine ⟨exists_tiers hperm hne, ?_, pairwise_of_returns_rank hreturns, ?_, ?_, ?_⟩
  · rintro _ hi _ hj hchange hdisharmony
    obtain ⟨a, ha, rfl⟩ := hentries.1 hi
    obtain ⟨b, hb, rfl⟩ := hentries.1 hj
    simp only [entryOf, item, Nat.cast_inj] at hchange hdisharmony ⊢
    rw [priorityOf, priorityOf, DenseRank.rankOf, DenseRank.rankOf, sumStanding, sumStanding, hchange, hdisharmony]
  · intro hdistinct hkeys churn' scores' hchurn hscores
    refine rank_eq_of_candidates (candidates_eq_of_perm hkeys hchurn hscores ?_)
    rw [hcs]
    have hpairs := ((hperm.map fun i => (i.identity.path, i.identity.uid)).nodup_iff).1 hdistinct
    rw [List.map_map] at hpairs
    exact hpairs
  · rintro wc wd rfl hwc hwd hfits i hi
    exact priority_eq_card hwc hwd hperm hfits hi
  · intro hmemory _ hi
    obtain ⟨c, hc, rfl⟩ := hentries.1 hi
    have hbound : weightedSum 1 1 (entryOf w cs c) ≤ (1 + 1) * (cs.length - 1) :=
      (sumOf_le (by decide) (by decide) hc).2
    omega

/-- The tiers of three equally unhealthy files that were changed three times, twice and once have no gap, do not depend
on how the files are listed, and are the numbers of smaller sums. -/
theorem tiers_of_three_files :
    ∃ list s', (rank sampleChurn sampleScores {}).Returns ({} : Session) list s' ∧ list ≠ [] ∧
      (∃ k : Nat, k + 1 ≤ list.length ∧ ∀ tier : Int, (∃ i ∈ list, i.priority = tier) ↔ 0 ≤ tier ∧ tier ≤ k) ∧
      (rank sampleChurn.reverse sampleScores.reverse {} : Run Session (List WorkItem)) =
        rank sampleChurn sampleScores {} ∧
      ∀ i ∈ list, i.priority = ((list.map (weightedSum 1 1)).toFinset.filter (· < weightedSum 1 1 i)).card := by
  have hcounts : ∀ e ∈ sampleChurn, e.2.changeCount < 2 ^ 53 := by decide
  obtain ⟨list, s', hlist⟩ := exists_returns_rank (w := {}) hcounts rfl rfl sampleScores ({} : Session)
  have hperm := perm_of_returns_rank hlist
  rw [candidates_sample] at hperm
  have hlength : list.length = 3 := hperm.length_eq
  have hne : list ≠ [] := by
    rintro rfl
    cases hlength
  have hdistinct : (list.map fun i => (i.identity.path, i.identity.uid)).Nodup := by
    rw [(hperm.map _).nodup_iff, List.map_map]
    change (sampleCandidates.map fun c => (c.identity.path, c.identity.uid)).Nodup
    decide
  obtain ⟨htiers, -, -, hany, hsums, hfits⟩ := tiers_of_rank hlist hne
  refine ⟨list, s', hlist, hne, htiers, ?_, ?_⟩
  · exact hany hdistinct (by decide) _ _ (List.reverse_perm _) (List.reverse_perm _)
  · exact hsums 1 1 rfl (by decide) (by decide) (hfits (by rw [hlength]; decide))

end Worklist

end Hotspots
