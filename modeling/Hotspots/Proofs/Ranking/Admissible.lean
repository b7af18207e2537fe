import Hotspots.Proofs.Number.RoundedOrder
import Hotspots.Proofs.Ranking.WeightedTiers
import Hotspots.Proofs.Scan.Findings

/-!
# Which files are ranked

The files to rank are those that are live and have a finding that counts: one with a score of zero or more, which is
also what a scorer keeps. The ranking passes over the scores below zero, and not-a-number is not below zero. So it
ranks exactly these files as long as no live file has a score that is not-a-number, and if the counts and the weights
are in range (`ranksAdmissible_iff`).
-/

namespace Hotspots.Worklist

variable {σ : Type} {churn : List (FileIdentity × ChurnRecord)} {scores : List (FileIdentity × Option Finding)}
  {w : Weights} {identity : FileIdentity} {record : ChurnRecord} {f : Finding} {list : List WorkItem}

/-- A live file with its record and its finding. -/
structure IsScored (churn : List (FileIdentity × ChurnRecord)) (scores : List (FileIdentity × Option Finding))
    (identity : FileIdentity) (record : ChurnRecord) (f : Finding) : Prop where
  churned : Record.get? identity churn = some record
  live : record.isLive = true
  found : Record.get? identity scores = some (some f)

/-- An entry with the data of a record and a finding. -/
structure HasDataOf (i : WorkItem) (record : ChurnRecord) (f : Finding) : Prop where
  changeCount : i.changeCount = max 1 record.changeCount
  firstModified : i.firstModified = record.firstModified
  lastModified : i.lastModified = record.lastModified
  score : i.score = f.score
  rule : i.rule = f.rule
  subject : i.subject = f.subject
  metrics : i.metrics = f.metrics

/-- A list with exactly one entry for each live file with a finding that counts, and no other entries. -/
structure ListsAdmissible (churn : List (FileIdentity × ChurnRecord)) (scores : List (FileIdentity × Option Finding))
    (list : List WorkItem) : Prop where
  mem_iff : ∀ identity, (∃ i ∈ list, i.identity = identity) ↔
    ∃ record f, IsScored churn scores identity record f ∧ Scorer.isAdmissible f = true
  nodup : (list.map (·.identity)).Nodup
  data : ∀ i ∈ list, 1 ≤ i.changeCount ∧ ∃ record f, IsScored churn scores i.identity record f ∧ HasDataOf i record f

/-- The ranking returns a list of exactly the live files with findings that count. -/
def RanksAdmissible [HasSession σ] (churn : List (FileIdentity × ChurnRecord))
    (scores : List (FileIdentity × Option Finding)) (w : Weights) (s : σ) : Prop :=
  ∃ list s', (rank churn scores w).Returns s list s' ∧ ListsAdmissible churn scores list

/-! ## Candidates and findings that count -/

/-- A finding counts if its score is a number that is not below zero. -/
theorem isAdmissible_iff : Scorer.isAdmissible f = true ↔ f.score.isNaN = false ∧ f.score.lt .zero = false := by
  constructor
  · exact fun h => ⟨(Binary64.isNaN_of_le h).2, Scorer.lt_zero_of_isAdmissible h⟩
  · rintro ⟨hnumber, hlt⟩
    rw [← Bool.not_eq_true, DenseRank.real_lt_iff hnumber rfl, not_lt] at hlt
    exact (DenseRank.real_le_iff rfl hnumber).2 hlt

/-- Not-a-number is not below zero. -/
theorem lt_zero_of_isNaN {x : Binary64} (h : x.isNaN = true) : x.lt .zero = false := by
  cases x with
  | nan => rfl
  | _ => cases h

/-- A file has one record and one finding. -/
theorem IsScored.eq {record' : ChurnRecord} {f' : Finding} (h : IsScored churn scores identity record f)
    (h' : IsScored churn scores identity record' f') : record = record' ∧ f = f' :=
  ⟨Option.some.inj (h.churned.symm.trans h'.churned), Option.some.inj (Option.some.inj (h.found.symm.trans h'.found))⟩

/-- The candidates are the live files with findings whose scores are not below zero. -/
theorem exists_candidate_iff (hkeys : (scores.map Prod.fst).Nodup) :
    (⟨identity, record, f⟩ : Candidate) ∈ candidates churn scores ↔
      IsScored churn scores identity record f ∧ f.score.lt .zero = false := by
  rw [mem_candidates]
  constructor
  · exact fun ⟨hmem, hrecord, hlive, hscore⟩ => ⟨⟨hrecord, hlive, Record.get?_of_mem hkeys hmem⟩, hscore⟩
  · exact fun ⟨h, hscore⟩ => ⟨Record.mem_of_get? h.found, h.churned, h.live, hscore⟩

/-- The entries of the work-list are those of the live files with findings whose scores are not below zero. -/
theorem exists_entry_iff (hkeys : (scores.map Prod.fst).Nodup)
    (hperm : list.Perm ((candidates churn scores).map (entryOf w (candidates churn scores)))) :
    (∃ i ∈ list, i.identity = identity) ↔
      ∃ record f, IsScored churn scores identity record f ∧ f.score.lt .zero = false := by
  constructor
  · rintro ⟨i, hi, rfl⟩
    obtain ⟨c, hc, rfl⟩ := List.mem_map.1 (hperm.mem_iff.1 hi)
    exact ⟨c.record, c.finding, (exists_candidate_iff hkeys).1 hc⟩
  · rintro ⟨record, f, h⟩
    exact ⟨_, hperm.mem_iff.2 (List.mem_map_of_mem ((exists_candidate_iff hkeys).2 h)), rfl⟩

/-- A work-list has one entry for each of its files, with the data of its own record and finding. -/
theorem nodup_and_data (hkeys : (scores.map Prod.fst).Nodup)
    (hperm : list.Perm ((candidates churn scores).map (entryOf w (candidates churn scores)))) :
    (list.map (·.identity)).Nodup ∧ ∀ i ∈ list, 1 ≤ i.changeCount ∧
      ∃ record f, IsScored churn scores i.identity record f ∧ HasDataOf i record f := by
  constructor
  · rw [(hperm.map _).nodup_iff, List.map_map]
    exact nodup_map_candidates (g := id) hkeys
  · intro i hi
    obtain ⟨c, hc, rfl⟩ := List.mem_map.1 (hperm.mem_iff.1 hi)
    have hscored := ((exists_candidate_iff hkeys).1 hc).1
    exact ⟨Int.le_max_left 1 _, c.record, c.finding, hscored, ⟨rfl, rfl, rfl, rfl, rfl, rfl, rfl⟩⟩

/-- No live file has a score that is not-a-number if exactly the findings that count are listed. -/
theorem isNaN_of_ranksAdmissible [HasSession σ] {s : σ} (hkeys : (scores.map Prod.fst).Nodup)
    (h : RanksAdmissible churn scores w s) (hscored : IsScored churn scores identity record f) :
    f.score.isNaN = false := by
  obtain ⟨list, s', hreturns, hlists⟩ := h
  by_contra hnan
  rw [Bool.not_eq_false] at hnan
  have hentry := (exists_entry_iff hkeys (perm_of_returns_rank hreturns)).2
    ⟨record, f, hscored, lt_zero_of_isNaN hnan⟩
  obtain ⟨record', f', hscored', hcounts⟩ := (hlists.mem_iff identity).1 hentry
  obtain ⟨-, rfl⟩ := hscored.eq hscored'
  rw [(isAdmissible_iff.1 hcounts).1] at hnan
  cases hnan

/-! ## The law -/

/-- The ranking lists exactly the live files with findings that count, each once and with its own data, if and only if
no live file has a score that is not-a-number and, where there is a file to list, the counts of these files are in range
and the weights fit in machine words. -/
theorem ranksAdmissible_iff [HasSession σ] (hkeys : (scores.map Prod.fst).Nodup) (s : σ) :
    RanksAdmissible churn scores w s ↔
      (∀ identity record f, IsScored churn scores identity record f → f.score.isNaN = false) ∧
      ∀ identity record f, IsScored churn scores identity record f → Scorer.isAdmissible f = true →
        (Binary64.ofInt (max 1 record.changeCount)).isFinite = true ∧
          checkWeight w.change = .ok () ∧ checkWeight w.disharmony = .ok () := by
  constructor
  · intro h
    refine ⟨fun identity record f hscored => isNaN_of_ranksAdmissible hkeys h hscored, ?_⟩
    obtain ⟨list, s', hreturns, -⟩ := h
    intro identity record f hscored hcounts
    have hmem := (exists_candidate_iff hkeys).2 ⟨hscored, Scorer.lt_zero_of_isAdmissible hcounts⟩
    obtain ⟨hfinite, hweights⟩ := exists_ofCandidates_iff.1
      (((exists_returns_rank_iff s).1 ⟨list, s', hreturns⟩).resolve_left (List.ne_nil_of_mem hmem))
    have hfinite := hfinite _ hmem
    rw [Candidate.changeCount] at hfinite
    exact ⟨hfinite, hweights⟩
  · rintro ⟨hnumbers, hrange⟩
    have hcounts : ∀ {identity record f}, IsScored churn scores identity record f ∧ f.score.lt .zero = false ↔
        IsScored churn scores identity record f ∧ Scorer.isAdmissible f = true := fun {identity record f} =>
      and_congr_right fun hscored => by rw [isAdmissible_iff, and_iff_right (hnumbers identity record f hscored)]
    obtain ⟨list, s', hreturns⟩ : ∃ list s', (rank churn scores w).Returns s list s' := by
      refine (exists_returns_rank_iff s).2 ?_
      cases hcs : candidates churn scores with
      | nil => exact .inl rfl
      | cons c cs =>
        have hall : ∀ c' ∈ c :: cs, (Binary64.ofInt c'.changeCount).isFinite = true ∧
            checkWeight w.change = .ok () ∧ checkWeight w.disharmony = .ok () := fun c' hc' =>
          have hscored := hcounts.1 ((exists_candidate_iff hkeys).1 (hcs ▸ hc'))
          hrange c'.identity c'.record c'.finding hscored.1 hscored.2
        exact .inr (exists_ofCandidates_iff.2 ⟨fun c hc => (hall c hc).1, (hall c List.mem_cons_self).2⟩)
    have hperm := perm_of_returns_rank hreturns
    obtain ⟨hnodup, hdata⟩ := nodup_and_data hkeys hperm
    refine ⟨list, s', hreturns, ⟨fun identity => ?_, hnodup, hdata⟩⟩
    simp only [exists_entry_iff hkeys hperm, hcounts]

/-- A file with an infinite score is ranked, and one with a score below zero is not. -/
theorem ranksAdmissible_of_infinite_score :
    let a : FileIdentity := { uid := 0, path := "a" }
    let b : FileIdentity := { uid := 1, path := "b" }
    let finding (score : Binary64) : Finding := { rule := "", score := score, subject := "", line := 0, metrics := [] }
    RanksAdmissible
      [(a, { identity := a, changeCount := 0, firstModified := 1, lastModified := 1 }),
        (b, { identity := b, changeCount := 2, firstModified := 1, lastModified := 1 })]
      [(a, some (finding (.infinite false))), (b, some (finding (.ofInt (-1))))] {} ({} : Session) := by
  intro a b finding
  refine (ranksAdmissible_iff (by decide) _).2 ⟨?_, ?_⟩
  · intro identity record f h
    have hmem := Record.mem_of_get? h.found
    simp only [List.mem_cons, Prod.mk.injEq, Option.some.injEq, List.not_mem_nil, or_false] at hmem
    obtain ⟨-, rfl⟩ | ⟨-, rfl⟩ := hmem
    · rfl
    · decide +kernel
  · intro identity record f h _
    have hmem := Record.mem_of_get? h.churned
    simp only [List.mem_cons, Prod.mk.injEq, List.not_mem_nil, or_false] at hmem
    obtain ⟨-, rfl⟩ | ⟨-, rfl⟩ := hmem
    · exact ⟨by decide +kernel, rfl, rfl⟩
    · exact ⟨by decide +kernel, rfl, rfl⟩

/-- A file with a score that is not-a-number is ranked, although its finding does not count. -/
theorem not_ranksAdmissible_of_nan :
    let a : FileIdentity := { uid := 0, path := "a" }
    ¬RanksAdmissible [(a, { identity := a, changeCount := 1, firstModified := 1, lastModified := 1 })]
      [(a, some { rule := "", score := .nan, subject := "", line := 0, metrics := [] })] {} ({} : Session) := by
  intro a h
  have hnumber : Binary64.nan.isNaN = false :=
    isNaN_of_ranksAdmissible (by decide) h (⟨rfl, rfl, rfl⟩ : IsScored _ _ a _ _)
  cases hnumber

end Hotspots.Worklist
