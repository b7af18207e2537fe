import Hotspots.Proofs.Ranking.DenseCount
import Hotspots.Proofs.Record.Lookup
import Hotspots.Proofs.Run.Ensures
import Hotspots.Ranking.Worklist

/-!
# The entries of the work-list

The work-list has one entry for each candidate, with the ranks of the candidate among all of them
(`perm_of_returns_rank`). The candidates are the live files with a score that is not below zero.
-/

namespace Hotspots

namespace DenseRank

/-- The real number nearest to a number, if it is in range. -/
def nearest (a : Number) : Binary64 := ((realOf a).toOption).getD .zero

/-- A real number is nearest to itself. -/
theorem nearest_real (x : Binary64) : nearest (.real x) = x := rfl

/-- Numbers that are all in range are replaced by the real numbers nearest to them. -/
theorem mapM_realOf {values : List Number} {reals : List Binary64} (h : values.mapM realOf = .ok reals) :
    reals = values.map nearest := by
  induction values generalizing reals with
  | nil =>
    cases h
    rfl
  | cons a rest ih =>
    rw [List.mapM_cons] at h
    obtain ⟨x, hx, h⟩ := bind_eq_ok.1 h
    obtain ⟨more, hmore, h⟩ := bind_eq_ok.1 h
    cases h
    rw [List.map_cons, ← ih hmore, nearest, hx]
    rfl

/-- Descending ranks count the different standings of greater values. -/
theorem eq_map_of_descending {α : Type} {cs : List α} {value : α → Number} {ranks : List Nat}
    (h : descending (cs.map value) = .ok ranks) :
    ranks = cs.map (rankOf (fun c => (Number.real (nearest (value c))).fallingStanding) cs) := by
  obtain ⟨reals, hreals, h⟩ := bind_eq_ok.1 h
  have hvalues : (reals.map fun x => Number.real x.neg) = cs.map fun c => .real (nearest (value c)).neg := by
    rw [mapM_realOf hreals, List.map_map, List.map_map]
    rfl
  cases h
  rw [hvalues, ranks_neg_eq_map]

end DenseRank

namespace Worklist

/-! ## The ranks of one candidate -/

/-- The place of a candidate on the churn axis. -/
def changeStanding (c : Candidate) : WithTop (WithBot (WithTop Int))ᵒᵈ :=
  (Number.real (DenseRank.nearest (.whole c.changeCount))).fallingStanding

/-- The place of a candidate on the score axis. -/
def scoreStanding (c : Candidate) : WithTop (WithBot (WithTop Int))ᵒᵈ :=
  (Number.real c.finding.score).fallingStanding

/-- The rank of a candidate by churn. -/
def changeRankOf (cs : List Candidate) (c : Candidate) : Nat := DenseRank.rankOf changeStanding cs c

/-- The rank of a candidate by score. -/
def disharmonyRankOf (cs : List Candidate) (c : Candidate) : Nat := DenseRank.rankOf scoreStanding cs c

/-- The place of the weighted sum of the ranks of a candidate. -/
def sumStanding (w : Weights) (cs : List Candidate) (c : Candidate) : WithTop (WithBot (WithTop Int)) :=
  (combined w (changeRankOf cs c) (disharmonyRankOf cs c)).standing

/-- The tier of a candidate. -/
def priorityOf (w : Weights) (cs : List Candidate) (c : Candidate) : Nat :=
  DenseRank.rankOf (sumStanding w cs) cs c

/-- The entry of a candidate among candidates. -/
def entryOf (w : Weights) (cs : List Candidate) (c : Candidate) : WorkItem :=
  item c (changeRankOf cs c) (disharmonyRankOf cs c) (priorityOf w cs c)

/-- Entries are made one for each candidate. -/
theorem items_map (cs : List Candidate) (change disharmony priority : Candidate → Nat) :
    items cs (cs.map change) (cs.map disharmony) (cs.map priority) =
      cs.map fun c => item c (change c) (disharmony c) (priority c) := by
  induction cs with
  | nil => rfl
  | cons c rest ih =>
    rw [List.map_cons, List.map_cons, List.map_cons, List.map_cons, items, ih]

/-- The ranks of candidates are the ranks of each of them. -/
theorem eq_of_ranksOf {w : Weights} {cs : List Candidate} {ranks : Ranks} (h : ranksOf w cs = .ok ranks) :
    ranks = ⟨cs.map (changeRankOf cs), cs.map (disharmonyRankOf cs), cs.map (priorityOf w cs)⟩ := by
  obtain ⟨change, hchange, h⟩ := bind_eq_ok.1 h
  obtain ⟨disharmony, hdisharmony, h⟩ := bind_eq_ok.1 h
  obtain ⟨_, _, h⟩ := bind_eq_ok.1 h
  obtain ⟨_, _, h⟩ := bind_eq_ok.1 h
  have hchangeRank : change = cs.map (changeRankOf cs) := DenseRank.eq_map_of_descending hchange
  have hdisharmonyRank : disharmony = cs.map (disharmonyRankOf cs) := by
    have hranks := DenseRank.eq_map_of_descending hdisharmony
    simp only [DenseRank.nearest_real] at hranks
    exact hranks
  have hsums : List.zipWith (combined w) change disharmony =
      cs.map fun c => combined w (changeRankOf cs c) (disharmonyRankOf cs c) := by
    rw [hchangeRank, hdisharmonyRank, List.zipWith_map, List.zipWith_self]
  cases h
  rw [hsums, DenseRank.ranks_map_eq, hchangeRank, hdisharmonyRank]
  rfl

/-- The work-list of candidates has the entry of each of them. -/
theorem perm_of_ofCandidates {w : Weights} {cs : List Candidate} {list : List WorkItem}
    (h : ofCandidates w cs = .ok list) : list.Perm (cs.map (entryOf w cs)) := by
  obtain ⟨ranks, hranks, h⟩ := bind_eq_ok.1 h
  cases h
  rw [eq_of_ranksOf hranks, items_map]
  exact List.mergeSort_perm _ _

/-- Ranking gives the entry of each candidate. -/
theorem ensures_rank {σ : Type} [HasSession σ] {P : σ → Prop} (hP : Run.IsSilent P)
    (churn : List (FileIdentity × ChurnRecord)) (scores : List (FileIdentity × Option Finding)) (w : Weights) :
    Run.Ensures P (rank churn scores w) fun list =>
      list.Perm ((candidates churn scores).map (entryOf w (candidates churn scores))) := by
  unfold rank
  split
  · next hnone =>
    rw [hnone]
    exact Run.ensures_pure (List.Perm.refl _)
  · apply (Run.ensures_ofFault _).bind
    intro list hlist
    exact (Run.ensures_log hP _ _).bind fun _ _ => Run.ensures_pure (perm_of_ofCandidates hlist)

/-- A work-list that is returned has the entry of each candidate. -/
theorem perm_of_returns_rank {σ : Type} [HasSession σ] {churn : List (FileIdentity × ChurnRecord)}
    {scores : List (FileIdentity × Option Finding)} {w : Weights} {s s' : σ} {list : List WorkItem}
    (h : (rank churn scores w).Returns s list s') :
    list.Perm ((candidates churn scores).map (entryOf w (candidates churn scores))) :=
  (ensures_rank (P := fun _ => True) (fun _ _ _ => trivial) churn scores w s list s' trivial h).1

/-! ## The candidates -/

/-- The candidates are the files with a finding that are live and whose score is not below zero. -/
theorem mem_candidates {churn : List (FileIdentity × ChurnRecord)}
    {scores : List (FileIdentity × Option Finding)} {c : Candidate} :
    c ∈ candidates churn scores ↔ (c.identity, some c.finding) ∈ scores ∧
      Record.get? c.identity churn = some c.record ∧ c.record.isLive = true ∧
      c.finding.score.lt .zero = false := by
  rw [candidates, (List.mergeSort_perm _ _).mem_iff, List.mem_filterMap]
  constructor
  · rintro ⟨⟨identity, finding⟩, hmem, hc⟩
    cases hrecord : Record.get? identity churn with
    | none => simp [candidate?, hrecord] at hc
    | some record =>
      cases finding with
      | none => simp [candidate?] at hc
      | some finding =>
        simp only [candidate?, hrecord, Option.ite_none_right_eq_some, Bool.and_eq_true,
          Bool.not_eq_true', Option.some.injEq] at hc
        obtain ⟨⟨hlive, hscore⟩, rfl⟩ := hc
        exact ⟨hmem, hrecord, hlive, hscore⟩
  · rintro ⟨hmem, hrecord, hlive, hscore⟩
    exact ⟨_, hmem, by simp [candidate?, hrecord, hlive, hscore]⟩

/-- A candidate has the identity of its file. -/
theorem identity_of_candidate? {churn : List (FileIdentity × ChurnRecord)} {identity : FileIdentity}
    {finding : Option Finding} {c : Candidate} (h : candidate? churn identity finding = some c) :
    c.identity = identity := by
  unfold candidate? at h
  split at h
  · rw [Option.ite_none_right_eq_some, Option.some.injEq] at h
    rw [← h.2]
  · cases h

/-- What is different for the files with scores is different for the candidates. -/
theorem nodup_map_candidates {β : Type} {churn : List (FileIdentity × ChurnRecord)}
    {scores : List (FileIdentity × Option Finding)} {g : FileIdentity → β}
    (h : (scores.map fun e => g e.1).Nodup) : ((candidates churn scores).map fun c => g c.identity).Nodup := by
  have hsublist : ∀ scores : List (FileIdentity × Option Finding),
      ((scores.filterMap fun e => candidate? churn e.1 e.2).map fun c => g c.identity).Sublist
        (scores.map fun e => g e.1) := by
    intro scores
    induction scores with
    | nil => exact List.Sublist.refl _
    | cons entry rest ih =>
      rw [List.map_cons, List.filterMap_cons]
      cases hc : candidate? churn entry.1 entry.2 with
      | none => exact ih.cons _
      | some c =>
        rw [← identity_of_candidate? hc]
        exact ih.cons_cons _
  exact (((List.mergeSort_perm _ _).map _).nodup_iff).2 ((hsublist scores).nodup h)

end Worklist

end Hotspots
