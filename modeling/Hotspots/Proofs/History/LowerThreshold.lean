import Hotspots.Proofs.History.StableMatching

/-!
# A lower threshold only adds renames

Pairs of similar contents are taken in the order of their ranks, in which greater similarities come first. The
candidates for a threshold are therefore the first ones of the candidates for every lower threshold
(`candidates_prefix_of_le`), and what is taken of them is not changed by what follows (`prefix_greedyFrom`). So no pair
is given up when the threshold is lowered (`lower_threshold_keeps_renames`).
-/

namespace Hotspots.Renames

variable {low high : Number}

/-- Whether the members of a pair are similar enough for a threshold. -/
def Pair.reaches (threshold : Number) (p : Pair) : Bool := threshold.le (.real p.similarity)

/-- A candidate for a threshold is a candidate for every lower one, if it reaches the threshold. -/
theorem candidate?_eq_filter (hle : low.le high = true) (oldContents newContents : Contents) (old new : FileChange) :
    candidate? high oldContents newContents old new =
      (candidate? low oldContents newContents old new).filter (Pair.reaches high) := by
  ext p
  rw [Option.filter_eq_some_iff, candidate?_eq_some_iff, candidate?_eq_some_iff]
  constructor
  · rintro ⟨hp, hold, hnew, hhigh⟩
    exact ⟨⟨hp, hold, hnew, DenseRank.le_trans_of_le hle hhigh⟩, hhigh⟩
  · rintro ⟨⟨hp, hold, hnew, -⟩, hhigh⟩
    exact ⟨hp, hold, hnew, hhigh⟩

/-- The candidates for a threshold are those for a lower one that reach it, in the same order. -/
theorem candidates_eq_filter (hle : low.le high = true) (oldContents newContents : Contents) (s : Sides) :
    candidates high oldContents newContents s =
      (candidates low oldContents newContents s).filter (Pair.reaches high) := by
  have hlisted : (s.deleted.flatMap fun old => s.added.filterMap (candidate? high oldContents newContents old)) =
      (s.deleted.flatMap fun old => s.added.filterMap (candidate? low oldContents newContents old)).filter
        (Pair.reaches high) := by
    rw [List.filter_flatMap]
    congr 1
    funext old
    rw [List.filter_filterMap]
    congr 1
    funext new
    exact candidate?_eq_filter hle oldContents newContents old new
  rw [candidates_eq_mergeSort, candidates_eq_mergeSort, hlisted, filter_mergeSort_key]

/-- A pair that does not come after one that reaches a threshold reaches it, too. -/
theorem reaches_of_rank_le {p q : Pair} (hp : p.similarity.isNaN = false) (hrank : p.rank ≤ q.rank)
    (hq : q.reaches high = true) : p.reaches high = true := by
  obtain ⟨hhigh, hnumber⟩ := DenseRank.isNaN_of_le hq
  rw [Pair.reaches, DenseRank.le_iff_place hhigh hnumber] at hq
  have hsimilarity : q.similarity.place ≤ p.similarity.place := by
    rcases Prod.Lex.toLex_le_toLex.1 hrank with hlt | ⟨heq, -⟩
    · exact le_of_lt hlt
    · exact le_of_eq (OrderDual.toDual_inj.1 heq).symm
  rw [Pair.reaches, DenseRank.le_iff_place hhigh (show DenseRank.isNaN (.real p.similarity) = false from hp)]
  exact hq.trans hsimilarity

/-- The candidates for a threshold are the first candidates for every lower one. -/
theorem candidates_prefix_of_le (hle : low.le high = true) (oldContents newContents : Contents) (s : Sides) :
    candidates high oldContents newContents s <+: candidates low oldContents newContents s := by
  rw [candidates_eq_filter hle]
  refine filter_prefix_of_pairwise ((pairwise_candidates low oldContents newContents s).imp_of_mem ?_)
  intro p q hp _ hrank hq
  obtain ⟨-, -, hcandidate⟩ := mem_candidates_iff.1 hp
  have hnumber : p.similarity.isNaN = false := by
    rw [(candidate?_eq_some_iff.1 hcandidate).1]
    exact LineOverlap.isNaN_similarity _ _
  exact reaches_of_rank_le hnumber hrank hq

/-- What is taken of the first pairs of a list is taken first of the whole list. -/
theorem prefix_greedyFrom {first pairs : List Pair} (h : first <+: pairs) (usedOld usedNew : List String) :
    greedyFrom usedOld usedNew first <+: greedyFrom usedOld usedNew pairs := by
  obtain ⟨rest, rfl⟩ := h
  induction first generalizing usedOld usedNew with
  | nil => exact List.nil_prefix
  | cons p first ih =>
    rw [List.cons_append, greedyFrom, greedyFrom]
    split
    · exact ih usedOld usedNew
    · exact (List.prefix_cons_inj p).2 (ih _ _)

/-- The pairs of similar contents for a threshold are the first ones for every lower threshold. -/
theorem similarPairs_prefix_of_le (hle : low.le high = true) (oldContents newContents : Contents) (s : Sides) :
    similarPairs high oldContents newContents s <+: similarPairs low oldContents newContents s :=
  prefix_greedyFrom (candidates_prefix_of_le hle oldContents newContents s) [] []

section Reconcile

variable {σ : Type} [HasSession σ] {load : String → Run σ Bytes}

/-- The same contents are compared for every threshold, if there are few enough. -/
theorem exists_returns_reconcileContents (hload : ∀ id, (load id).IsTotal) (maxPairs : Number) (s : Sides) (t : σ) :
    ∃ chosen : Number → List Pair,
      (∀ threshold, ∃ t', (reconcileContents load ⟨threshold, maxPairs⟩ s).Returns t
        (s.takeAll (chosen threshold)) t') ∧
        ∀ low high, low.le high = true → chosen high <+: chosen low := by
  unfold reconcileContents
  by_cases hmany : maxPairs.lt (.whole (s.deleted.length * s.added.length : Nat)) = true
  · refine ⟨fun _ => [], fun threshold => ?_, fun _ _ _ => List.prefix_rfl⟩
    rw [Limits.excludes, if_pos hmany]
    exact ⟨_, Run.returns_bind.2 ⟨(), _, Run.returns_log.2 rfl, Run.returns_pure.2 ⟨rfl, rfl⟩⟩⟩
  · obtain ⟨oldContents, t₁, hold⟩ := isTotal_loadAll hload FileChange.oldBlob s.deleted [] t
    obtain ⟨newContents, t₂, hnew⟩ := isTotal_loadAll hload FileChange.newBlob s.added [] t₁
    refine ⟨fun threshold => similarPairs threshold oldContents newContents s, fun threshold => ?_,
      fun _ _ hle => similarPairs_prefix_of_le hle oldContents newContents s⟩
    rw [Limits.excludes, if_neg hmany]
    exact ⟨_, Run.returns_bind.2 ⟨_, _, hold, Run.returns_bind.2 ⟨_, _, hnew, returns_settle_takeAll _ _ _⟩⟩⟩

/-- For every threshold pairs are taken from the same sides, and for a lower one more pairs. -/
theorem exists_returns_reconcile (hload : ∀ id, (load id).IsTotal) (maxPairs : Number) (changes : List FileChange)
    (t : σ) : ∃ chosen : Number → List Pair,
      (∀ threshold, ∃ t', (reconcile load ⟨threshold, maxPairs⟩ changes).Returns t
        ((leftOf changes).takeAll (chosen threshold)).changes t') ∧
        ∀ low high, low.le high = true → chosen high <+: chosen low := by
  obtain ⟨t₁, hexact⟩ : ∃ t₁, (settle (Sides.ofChanges changes) (exactPairs (Sides.ofChanges changes))).Returns t
      (leftOf changes) t₁ := ⟨_, returns_settle_takeAll _ _ t⟩
  by_cases hopen : (leftOf changes).isOpen = true
  · obtain ⟨chosen, hreturns, hstarts⟩ := exists_returns_reconcileContents hload maxPairs (leftOf changes) t₁
    refine ⟨chosen, fun threshold => ?_, hstarts⟩
    obtain ⟨t', hcontents⟩ := hreturns threshold
    refine ⟨t', Run.returns_bind.2 ⟨leftOf changes, t₁, hexact, ?_⟩⟩
    rw [if_pos hopen]
    exact Run.returns_bind.2 ⟨_, _, hcontents, Run.returns_pure.2 ⟨rfl, rfl⟩⟩
  · refine ⟨fun _ => [], fun threshold => ⟨t₁, Run.returns_bind.2 ⟨leftOf changes, t₁, hexact, ?_⟩⟩,
      fun _ _ _ => List.prefix_rfl⟩
    rw [if_neg hopen]
    exact Run.returns_pure.2 ⟨rfl, rfl⟩

/-- Lowering the threshold only adds renames. If every content can be loaded, then each rename that is found with a
threshold is found unchanged with every threshold that is at most this one, and as often, whatever the changes and the
largest number of pairs are. -/
theorem lower_threshold_keeps_renames (hle : low.le high = true) (hload : ∀ id, (load id).IsTotal) (maxPairs : Number)
    (changes : List FileChange) (t : σ) : ∃ few many t₁ t₂,
      (reconcile load ⟨high, maxPairs⟩ changes).Returns t few t₁ ∧
        (reconcile load ⟨low, maxPairs⟩ changes).Returns t many t₂ ∧
        (∀ c ∈ few, c.kind = .renamed → c ∈ many) ∧ (few.filter isRename).Subperm (many.filter isRename) := by
  obtain ⟨chosen, hreturns, hstarts⟩ := exists_returns_reconcile hload maxPairs changes t
  obtain ⟨t₁, hfew⟩ := hreturns high
  obtain ⟨t₂, hmany⟩ := hreturns low
  have hchosen : ((chosen high).map Pair.change).Subperm ((chosen low).map Pair.change) :=
    ((hstarts low high hle).sublist.map Pair.change).subperm
  have hrenames := ((List.subperm_append_left _).2 ((List.subperm_append_left _).2 hchosen)).trans
    (filter_isRename_perm changes (chosen low)).symm.subperm
  have hsubperm := (filter_isRename_perm changes (chosen high)).subperm.trans hrenames
  refine ⟨_, _, t₁, t₂, hfew, hmany, fun c hc hkind => ?_, hsubperm⟩
  have hrename : isRename c = true := by rw [isRename, hkind]; rfl
  exact (List.mem_filter.1 (hsubperm.subset (List.mem_filter.2 ⟨hc, hrename⟩))).1

/-- Both deletions compete for one addition. The other addition is similar enough only for the lower threshold, with
which it is paired with the deletion that was left. -/
theorem lower_threshold_keeps_renames_competing :
    let half := Number.real (Binary64.ofRatio false 1 2)
    let most := Number.real (Binary64.ofRatio false 4 5)
    let load : String → Run Session Bytes := fun id => pure id.toUTF8.toList
    let moved := [⟨.deleted, "d", none, some "1\n2\n3\n4", none, .zero⟩,
      ⟨.deleted, "c", none, some "1\n2\n3\n5", none, .zero⟩, ⟨.added, "a", none, none, some "1\n2\n3\n4\n5", .zero⟩,
      ⟨.added, "b", none, none, some "1\n2\n5\n6", .zero⟩]
    half.le most = true ∧ (∀ id, (load id).IsTotal) ∧ ∃ few many t₁ t₂,
      (reconcile load ⟨most, .whole 4⟩ moved).Returns {} few t₁ ∧
        (reconcile load ⟨half, .whole 4⟩ moved).Returns {} many t₂ ∧
        (∀ c ∈ few, c.kind = .renamed → c ∈ many) ∧ (few.filter isRename).Subperm (many.filter isRename) := by
  intro half most load moved
  have hle : half.le most = true := by decide +kernel
  have hload : ∀ id, (load id).IsTotal := fun id => Run.isTotal_pure id.toUTF8.toList
  exact ⟨hle, hload, lower_threshold_keeps_renames hle hload (.whole 4) moved {}⟩

end Reconcile

end Hotspots.Renames
