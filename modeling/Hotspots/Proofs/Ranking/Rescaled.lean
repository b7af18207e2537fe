import Hotspots.Proofs.Ranking.DenseCount
import Hotspots.Proofs.Ranking.WeightedTiers

/-!
# Ranking needs no common scale

Counts of changes and scores are reduced to dense ranks before they are combined, and dense ranks depend on the order
of the values alone. So if counts and scores are rescaled, each in a strictly increasing way, ranks, tiers and the
order of the work-list stay what they were, and ranking fails where it failed (`exec_rank_rescaled`). Counts are ranked
as real numbers, so that this holds as long as these can tell the counts apart.
-/

namespace Hotspots

namespace DenseRank

/-- Numbers in range that stand in the same order have the same descending ranks. -/
theorem descending_congr {α : Type} {cs : List α} {value value' : α → Number}
    (hreal : ∀ a ∈ cs, ∃ x, realOf (value a) = .ok x) (hreal' : ∀ a ∈ cs, ∃ x, realOf (value' a) = .ok x)
    (horder : ∀ a ∈ cs, ∀ b ∈ cs,
      (Number.real (nearest (value' a))).fallingStanding < (Number.real (nearest (value' b))).fallingStanding ↔
        (Number.real (nearest (value a))).fallingStanding < (Number.real (nearest (value b))).fallingStanding) :
    descending (cs.map value') = descending (cs.map value) := by
  obtain ⟨ranks, hranks⟩ := Worklist.exists_descending_iff.2 (List.forall_mem_map.2 hreal)
  obtain ⟨ranks', hranks'⟩ := Worklist.exists_descending_iff.2 (List.forall_mem_map.2 hreal')
  rw [hranks, hranks', eq_map_of_descending hranks, eq_map_of_descending hranks']
  exact congrArg Except.ok (List.map_congr_left fun c hc => rankOf_congr horder hc)

/-- Integers of few bits are in range. -/
theorem exists_realOf_whole {i : Int} (hnonneg : 0 ≤ i) (hbits : i < 2 ^ 53) : ∃ x, realOf (.whole i) = .ok x := by
  rw [realOf, Binary64.ofInt_eq hnonneg hbits]
  exact ⟨_, rfl⟩

end DenseRank

namespace Worklist

variable {σ : Type} {f : Int → Int} {g : Binary64 → Binary64} {churn : List (FileIdentity × ChurnRecord)}
  {scores : List (FileIdentity × Option Finding)} {cs : List Candidate} {w : Weights}

/-! ## Rescaling -/

/-- A rescaling of the counts and the scores of candidates: both grow strictly with what they are made from, counts
stay positive and scores do not become negative. All counts are integers that real numbers hold exactly. Nothing is
asked of values that no candidate has. -/
structure IsRescaling (f : Int → Int) (g : Binary64 → Binary64) (cs : List Candidate) : Prop where
  /-- The counts have few bits. -/
  count_lt : ∀ c ∈ cs, c.changeCount < 2 ^ 53
  /-- The new counts are positive and have few bits. -/
  newCount_bounds : ∀ c ∈ cs, 0 < f c.changeCount ∧ f c.changeCount < 2 ^ 53
  /-- The counts keep their order. -/
  count_mono : ∀ c ∈ cs, ∀ d ∈ cs, c.changeCount < d.changeCount → f c.changeCount < f d.changeCount
  /-- The scores are numbers. -/
  score_isNaN : ∀ c ∈ cs, c.finding.score.isNaN = false
  /-- The new scores are numbers that are not negative. -/
  newScore_nonneg : ∀ c ∈ cs, Binary64.zero.le (g c.finding.score) = true
  /-- The scores keep their order. -/
  score_mono : ∀ c ∈ cs, ∀ d ∈ cs, c.finding.score.lt d.finding.score = true →
    (g c.finding.score).lt (g d.finding.score) = true
  /-- Equal scores stay equal, also the two zeros. -/
  score_congr : ∀ c ∈ cs, ∀ d ∈ cs, c.finding.score.eq d.finding.score = true →
    (g c.finding.score).eq (g d.finding.score) = true

/-- A record with its count rescaled. -/
def rescaleRecord (f : Int → Int) (r : ChurnRecord) : ChurnRecord := { r with changeCount := f (max 1 r.changeCount) }

/-- A finding with its score rescaled. Negative scores are left, for they keep their files out of the work-list. -/
def rescaleFinding (g : Binary64 → Binary64) (x : Finding) : Finding :=
  if x.score.lt .zero then x else { x with score := g x.score }

/-- Churn with its counts rescaled. -/
def rescaleChurn (f : Int → Int) (churn : List (FileIdentity × ChurnRecord)) : List (FileIdentity × ChurnRecord) :=
  churn.map fun e => (e.1, rescaleRecord f e.2)

/-- Findings with their scores rescaled. -/
def rescaleScores (g : Binary64 → Binary64) (scores : List (FileIdentity × Option Finding)) :
    List (FileIdentity × Option Finding) :=
  scores.map fun e => (e.1, e.2.map (rescaleFinding g))

/-- An entry of a work-list with its count and its score rescaled, and all else as it was. -/
def rescaleItem (f : Int → Int) (g : Binary64 → Binary64) (i : WorkItem) : WorkItem :=
  { i with changeCount := f i.changeCount, score := g i.score }

/-- A candidate with its count and its score rescaled. -/
def Candidate.rescale (f : Int → Int) (g : Binary64 → Binary64) (c : Candidate) : Candidate :=
  { c with record := rescaleRecord f c.record, finding := { c.finding with score := g c.finding.score } }

/-- The rescaled count of a candidate is positive, so that it counts. -/
theorem IsRescaling.changeCount_rescale (h : IsRescaling f g cs) {c : Candidate} (hc : c ∈ cs) :
    (c.rescale f g).changeCount = f c.changeCount :=
  max_eq_right (h.newCount_bounds c hc).1

/-- The new scores are numbers. -/
theorem IsRescaling.newScore_isNaN (h : IsRescaling f g cs) {c : Candidate} (hc : c ∈ cs) :
    (g c.finding.score).isNaN = false := by
  have hnonneg := h.newScore_nonneg c hc
  cases hscore : g c.finding.score with
  | nan =>
    rw [hscore] at hnonneg
    cases hnonneg
  | _ => rfl

/-- The new scores are not below zero. -/
theorem IsRescaling.newScore_lt_zero (h : IsRescaling f g cs) {c : Candidate} (hc : c ∈ cs) :
    (g c.finding.score).lt .zero = false := by
  have hnonneg := (DenseRank.real_le_iff rfl (h.newScore_isNaN hc)).1 (h.newScore_nonneg c hc)
  rw [← Bool.not_eq_true, DenseRank.real_lt_iff (h.newScore_isNaN hc) rfl]
  exact not_lt.2 hnonneg

/-! ## The ranks -/

/-- New counts are in the order of the counts. -/
theorem IsRescaling.newCount_lt_iff (h : IsRescaling f g cs) {c d : Candidate} (hc : c ∈ cs) (hd : d ∈ cs) :
    f c.changeCount < f d.changeCount ↔ c.changeCount < d.changeCount := by
  refine ⟨fun hlt => ?_, h.count_mono c hc d hd⟩
  rcases lt_trichotomy c.changeCount d.changeCount with hless | heq | hgreater
  · exact hless
  · rw [heq] at hlt
    exact absurd hlt (lt_irrefl _)
  · exact absurd hlt (h.count_mono d hd c hc hgreater).asymm

/-- New scores are in the order of the scores. -/
theorem IsRescaling.newScore_lt_iff (h : IsRescaling f g cs) {c d : Candidate} (hc : c ∈ cs) (hd : d ∈ cs) :
    (g c.finding.score).place < (g d.finding.score).place ↔ c.finding.score.place < d.finding.score.place := by
  have hlt : ∀ {a}, a ∈ cs → ∀ {b}, b ∈ cs → a.finding.score.place < b.finding.score.place →
      (g a.finding.score).place < (g b.finding.score).place := fun ha _ hb hab =>
    (DenseRank.real_lt_iff (h.newScore_isNaN ha) (h.newScore_isNaN hb)).1 (h.score_mono _ ha _ hb
      ((DenseRank.real_lt_iff (h.score_isNaN _ ha) (h.score_isNaN _ hb)).2 hab))
  refine ⟨fun hnew => ?_, hlt hc hd⟩
  rcases lt_trichotomy c.finding.score.place d.finding.score.place with hless | heq | hgreater
  · exact hless
  · have hequal := h.score_congr c hc d hd
      ((DenseRank.real_eq_iff (h.score_isNaN c hc) (h.score_isNaN d hd)).2 heq)
    exact absurd ((DenseRank.real_eq_iff (h.newScore_isNaN hc) (h.newScore_isNaN hd)).1 hequal) hnew.ne
  · exact absurd hnew (hlt hd hc hgreater).asymm

/-- Rescaling keeps the order of the candidates by churn. -/
theorem IsRescaling.changeStanding_lt_iff (h : IsRescaling f g cs) {c d : Candidate} (hc : c ∈ cs) (hd : d ∈ cs) :
    changeStanding (c.rescale f g) < changeStanding (d.rescale f g) ↔ changeStanding c < changeStanding d := by
  have hbits : ∀ a ∈ cs, (a.rescale f g).changeCount < 2 ^ 53 := fun a ha => by
    rw [h.changeCount_rescale ha]
    exact (h.newCount_bounds a ha).2
  rw [← not_le, ← not_le, changeStanding_le_iff (hbits d hd) (hbits c hc),
    changeStanding_le_iff (h.count_lt d hd) (h.count_lt c hc), not_le, not_le, h.changeCount_rescale hc,
    h.changeCount_rescale hd, h.newCount_lt_iff hd hc]

/-- Rescaling keeps the order of the candidates by score. -/
theorem IsRescaling.scoreStanding_lt_iff (h : IsRescaling f g cs) {c d : Candidate} (hc : c ∈ cs) (hd : d ∈ cs) :
    scoreStanding (c.rescale f g) < scoreStanding (d.rescale f g) ↔ scoreStanding c < scoreStanding d := by
  have hnew : scoreStanding (d.rescale f g) ≤ scoreStanding (c.rescale f g) ↔
      (g c.finding.score).place ≤ (g d.finding.score).place :=
    fallingStanding_le_iff (h.newScore_isNaN hd) (h.newScore_isNaN hc)
  have hold : scoreStanding d ≤ scoreStanding c ↔ c.finding.score.place ≤ d.finding.score.place :=
    fallingStanding_le_iff (h.score_isNaN d hd) (h.score_isNaN c hc)
  rw [← not_le, ← not_le, hnew, hold, not_le, not_le, h.newScore_lt_iff hd hc]

/-- Rescaling keeps all ranks, and the fault if there are none. -/
theorem IsRescaling.ranksOf_eq (h : IsRescaling f g cs) (w : Weights) :
    ranksOf w (cs.map (Candidate.rescale f g)) = ranksOf w cs := by
  have hchange : DenseRank.descending (cs.map fun c => .whole (c.rescale f g).changeCount) =
      DenseRank.descending (cs.map fun c => .whole c.changeCount) := by
    refine DenseRank.descending_congr (fun c hc => ?_) (fun c hc => ?_) fun c hc d hd => h.changeStanding_lt_iff hc hd
    · exact DenseRank.exists_realOf_whole (le_trans Int.one_nonneg (le_max_left _ _)) (h.count_lt c hc)
    · rw [h.changeCount_rescale hc]
      exact DenseRank.exists_realOf_whole (h.newCount_bounds c hc).1.le (h.newCount_bounds c hc).2
  have hdisharmony : DenseRank.descending (cs.map fun c => .real (c.rescale f g).finding.score) =
      DenseRank.descending (cs.map fun c => .real c.finding.score) := by
    refine DenseRank.descending_congr (fun _ _ => ⟨_, rfl⟩) (fun _ _ => ⟨_, rfl⟩) fun c hc d hd => ?_
    simp only [DenseRank.nearest_real]
    exact h.scoreStanding_lt_iff hc hd
  rw [ranksOf, ranksOf, List.map_map, List.map_map]
  exact congrArg₂ (fun change disharmony : Except Fault (List Nat) => do
    let change ← change
    let disharmony ← disharmony
    checkWeight w.change
    checkWeight w.disharmony
    return (⟨change, disharmony, DenseRank.ranks (List.zipWith (combined w) change disharmony)⟩ : Ranks))
    hchange hdisharmony

/-! ## The work-list -/

/-- The entries of rescaled candidates are the rescaled entries. -/
theorem IsRescaling.items_eq (h : IsRescaling f g cs) (change disharmony priority : List Nat) :
    items (cs.map (Candidate.rescale f g)) change disharmony priority =
      (items cs change disharmony priority).map (rescaleItem f g) := by
  have hall : ∀ as, (∀ c ∈ as, c ∈ cs) → ∀ rs ds ps, items (as.map (Candidate.rescale f g)) rs ds ps =
      (items as rs ds ps).map (rescaleItem f g) := by
    intro as
    induction as with
    | nil => intro _ rs ds ps; rfl
    | cons c as ih =>
      intro has rs ds ps
      have hitem : ∀ r d p, item (c.rescale f g) r d p = rescaleItem f g (item c r d p) := by
        intro r d p
        simp only [item, rescaleItem, h.changeCount_rescale (has c List.mem_cons_self)]
        rfl
      rcases rs with _ | ⟨r, rs⟩ <;> rcases ds with _ | ⟨d, ds⟩ <;> rcases ps with _ | ⟨p, ps⟩ <;> try rfl
      simp only [List.map_cons, items, hitem, ih (fun a ha => has a (List.mem_cons_of_mem _ ha))]
  exact hall cs (fun _ hc => hc) change disharmony priority

/-- The work-list of rescaled candidates is the rescaled work-list. -/
theorem IsRescaling.ofCandidates_eq (h : IsRescaling f g cs) (w : Weights) :
    ofCandidates w (cs.map (Candidate.rescale f g)) = (ofCandidates w cs).map (List.map (rescaleItem f g)) := by
  rw [ofCandidates, ofCandidates, h.ranksOf_eq]
  cases ranksOf w cs with
  | error e => rfl
  | ok ranks =>
    refine congrArg Except.ok ?_
    rw [h.items_eq]
    exact (List.map_mergeSort (f := rescaleItem f g) fun _ _ _ _ => rfl).symm

/-- Rescaling keeps who the candidates are and their order. -/
theorem IsRescaling.candidates_eq (h : IsRescaling f g (candidates churn scores)) :
    candidates (rescaleChurn f churn) (rescaleScores g scores) =
      (candidates churn scores).map (Candidate.rescale f g) := by
  have hentry : ∀ e ∈ scores, candidate? (rescaleChurn f churn) e.1 (e.2.map (rescaleFinding g)) =
      (candidate? churn e.1 e.2).map (Candidate.rescale f g) := by
    rintro ⟨identity, finding⟩ he
    have hget : Record.get? identity (rescaleChurn f churn) =
        (Record.get? identity churn).map (rescaleRecord f) := Record.get?_map _ _ _
    cases hrecord : Record.get? identity churn with
    | none => simp [candidate?, hget, hrecord]
    | some r =>
      cases finding with
      | none => simp [candidate?]
      | some x =>
        have hlive : (rescaleRecord f r).isLive = r.isLive := rfl
        cases hneg : x.score.lt .zero with
        | true => simp [candidate?, hget, hrecord, rescaleFinding, hneg]
        | false =>
          cases hr : r.isLive with
          | false => simp [candidate?, hget, hrecord, hlive, hr]
          | true =>
            have hmem : (⟨identity, r, x⟩ : Candidate) ∈ candidates churn scores :=
              mem_candidates.2 ⟨he, hrecord, hr, hneg⟩
            have hscore : (g x.score).lt .zero = false := h.newScore_lt_zero hmem
            simp [candidate?, hget, hrecord, hlive, hr, rescaleFinding, hneg, hscore, Candidate.rescale]
  have hall : (rescaleScores g scores).filterMap (fun e => candidate? (rescaleChurn f churn) e.1 e.2) =
      (scores.filterMap fun e => candidate? churn e.1 e.2).map (Candidate.rescale f g) := by
    rw [List.map_filterMap, rescaleScores, List.filterMap_map]
    exact List.filterMap_congr hentry
  have hsort := List.map_mergeSort (f := Candidate.rescale f g) (r := fun a b => precedes a.identity b.identity)
    (s := fun a b => precedes a.identity b.identity) (l := scores.filterMap fun e => candidate? churn e.1 e.2)
    fun _ _ _ _ => rfl
  rw [← hall] at hsort
  exact hsort.symm

/-! ## The law -/

/-- If counts of changes and scores are rescaled in strictly increasing ways, ranking returns the same entries in the
same order with the same ranks and tiers, only with the new counts and scores, or fails in the same way. -/
theorem exec_rank_rescaled [HasSession σ] (h : IsRescaling f g (candidates churn scores)) (s : σ) :
    Run.exec (rank (rescaleChurn f churn) (rescaleScores g scores) w) s =
      ((Run.exec (rank churn scores w) s).1.map (List.map (rescaleItem f g)),
        (Run.exec (rank churn scores w) s).2) := by
  rw [rank, rank, h.candidates_eq]
  cases hcs : candidates churn scores with
  | nil => rfl
  | cons c rest =>
    rw [hcs] at h
    have hlist := h.ofCandidates_eq w
    rw [List.map_cons] at hlist ⊢
    simp only [hlist]
    cases ofCandidates w (c :: rest) with
    | error e => rfl
    | ok list =>
      -- The entry of the log tells the numbers of entries and tiers, which are the same.
      have hlength : (list.map (rescaleItem f g)).length = list.length := List.length_map _
      have htiers : tierCount (list.map (rescaleItem f g)) = tierCount list := by
        rw [tierCount, List.map_map]
        rfl
      simp only [Run.exec_bind, Except.map, Run.exec_ofFault, Except.mapError, hlength, htiers]
      rfl

/-! ## Two files -/

/-- Two files, of which the healthier one was changed more often. -/
def gradedCandidates : List Candidate :=
  [(sampleRecord 0 "a" 3, 1), (sampleRecord 1 "b" 2, 2)].map fun e =>
    ⟨e.1.identity, e.1, { rule := "god-class", score := .ofInt e.2, subject := "C", line := 1, metrics := [] }⟩

/-- The churn of the two files. -/
def gradedChurn : List (FileIdentity × ChurnRecord) := gradedCandidates.map fun c => (c.identity, c.record)

/-- The findings of the two files. -/
def gradedScores : List (FileIdentity × Option Finding) := gradedCandidates.map fun c => (c.identity, some c.finding)

/-- The two files are candidates in the order of their paths. -/
theorem candidates_graded : candidates gradedChurn gradedScores = gradedCandidates := by
  have hscores : (Binary64.ofInt 1).lt .zero = false ∧ (Binary64.ofInt 2).lt .zero = false := by decide +kernel
  have hfilter : (gradedScores.filterMap fun e => candidate? gradedChurn e.1 e.2) = gradedCandidates := by
    simp [gradedScores, gradedChurn, gradedCandidates, candidate?, Record.get?, sampleRecord, ChurnRecord.isLive,
      hscores]
  rw [candidates, hfilter]
  exact List.mergeSort_of_pairwise (by decide +kernel)

/-- With the counts squared and one added to the scores the work-list of the two files has the same ranks and tiers. -/
theorem exec_rank_squared_counts :
    IsRescaling (fun n => n * n) (·.add (.ofInt 1)) (candidates gradedChurn gradedScores) ∧ ∀ s : Session,
      Run.exec (rank (rescaleChurn (fun n => n * n) gradedChurn)
        (rescaleScores (·.add (.ofInt 1)) gradedScores) {}) s =
      ((Run.exec (rank gradedChurn gradedScores {}) s).1.map
          (List.map (rescaleItem (fun n => n * n) (·.add (.ofInt 1)))),
        (Run.exec (rank gradedChurn gradedScores {}) s).2) := by
  have h : IsRescaling (fun n => n * n) (·.add (.ofInt 1)) (candidates gradedChurn gradedScores) := by
    rw [candidates_graded]
    constructor <;> decide +kernel
  exact ⟨h, exec_rank_rescaled h⟩

end Worklist

end Hotspots
