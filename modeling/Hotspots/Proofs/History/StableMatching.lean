import Hotspots.Proofs.History.Loading
import Hotspots.Proofs.History.OverlapRatio
import Hotspots.Proofs.History.Removals
import Hotspots.Proofs.Ranking.DenseOrder
import Mathlib.Data.Finset.Max
import Mathlib.Data.Prod.Lex
import Mathlib.Data.String.Basic

/-!
# Pairs of similar contents are stable

What equal blobs leave is paired by content, the most similar contents first. The pairs are a stable matching: a pair
that could be made and was not shares its deletion or its addition with a pair that was made and comes earlier
(`IsStableMatching`). There is only one stable matching (`IsStableMatching.perm`), and rename detection finds it unless
there are too many pairs to compare (`similar_contents_stable`).
-/

namespace Hotspots

namespace Renames

/-! ## The order of pairs -/

namespace Pair

/-- A pair comes before another: the greater similarity first, then the smaller old path, then the smaller new
path. -/
def Before (p q : Pair) : Prop :=
  q.similarity.lt p.similarity = true ∨ p.similarity.eq q.similarity = true ∧
    (p.old.path < q.old.path ∨ p.old.path = q.old.path ∧ p.new.path < q.new.path)

/-- The rank of a pair in a linear order. -/
def rank (p : Pair) : Lex ((WithBot (WithTop Int))ᵒᵈ × Lex (String × String)) :=
  toLex (OrderDual.toDual p.similarity.place, toLex (p.old.path, p.new.path))

variable {p q : Pair}

/-- Pairs come one before the other as their ranks do. -/
theorem before_iff (hp : p.similarity.isNaN = false) (hq : q.similarity.isNaN = false) :
    p.Before q ↔ p.rank < q.rank := by
  rw [Before, rank, rank, Prod.Lex.toLex_lt_toLex, Prod.Lex.toLex_lt_toLex, OrderDual.toDual_lt_toDual,
    OrderDual.toDual_inj, DenseRank.real_lt_iff hq hp, DenseRank.real_eq_iff hp hq]

/-- The order of sorting is that of the ranks. -/
theorem precedes_iff (hp : p.similarity.isNaN = false) (hq : q.similarity.isNaN = false) :
    p.precedes q = true ↔ p.rank ≤ q.rank := by
  rw [rank, rank, Prod.Lex.toLex_le_toLex, Prod.Lex.toLex_le_toLex, OrderDual.toDual_lt_toDual, OrderDual.toDual_inj]
  unfold precedes
  by_cases hsame : p.similarity.eq q.similarity = true
  · have hplace := (DenseRank.real_eq_iff hp hq).1 hsame
    simp [hsame, hplace]
  · have hplace : p.similarity.place ≠ q.similarity.place := fun h => hsame ((DenseRank.real_eq_iff hp hq).2 h)
    rw [if_neg hsame, DenseRank.real_lt_iff hq hp]
    simp [hplace]

/-- Pairs of one rank are at the same paths. -/
theorem paths_of_rank_eq (h : p.rank = q.rank) : p.old.path = q.old.path ∧ p.new.path = q.new.path :=
  Prod.mk.inj (toLex.injective (Prod.mk.inj (toLex.injective h)).2)

/-- What is loaded for the deletion of a pair. -/
def oldContent (content : String → Bytes) (p : Pair) : Bytes := content (p.old.oldBlob.getD "")

/-- What is loaded for the addition of a pair. -/
def newContent (content : String → Bytes) (p : Pair) : Bytes := content (p.new.newBlob.getD "")

end Pair

/-! ## Stable matchings -/

/-- A deletion and an addition of the sides that may be paired: both have content, and the contents are similar
enough. -/
structure IsEligible (content : String → Bytes) (threshold : Number) (s : Sides) (p : Pair) : Prop where
  old_mem : p.old ∈ s.deleted
  new_mem : p.new ∈ s.added
  old_ne_nil : p.oldContent content ≠ []
  new_ne_nil : p.newContent content ≠ []
  similarity_eq : p.similarity = LineOverlap.similarity (p.oldContent content) (p.newContent content)
  threshold_le : threshold.le (.real p.similarity) = true

/-- Eligible pairs of different deletions and different additions, such that every other eligible pair shares one of its
sides with a pair that comes before it. -/
structure IsStableMatching (content : String → Bytes) (threshold : Number) (s : Sides) (chosen : List Pair) : Prop where
  isEligible : ∀ p ∈ chosen, IsEligible content threshold s p
  nodup_old : (chosen.map Pair.old).Nodup
  nodup_new : (chosen.map Pair.new).Nodup
  blocked : ∀ q, IsEligible content threshold s q → q ∉ chosen →
    ∃ p ∈ chosen, p.Before q ∧ (p.old = q.old ∨ p.new = q.new)

section Stable

variable {content : String → Bytes} {threshold : Number} {s : Sides} {chosen other : List Pair} {p q : Pair}

/-- The similarity of an eligible pair is a number. -/
theorem IsEligible.isNaN (h : IsEligible content threshold s p) : p.similarity.isNaN = false := by
  rw [h.similarity_eq]
  exact LineOverlap.isNaN_similarity _ _

/-- Eligible pairs of the same members are equal. -/
theorem IsEligible.ext (hp : IsEligible content threshold s p) (hq : IsEligible content threshold s q)
    (hold : p.old = q.old) (hnew : p.new = q.new) : p = q := by
  obtain ⟨old, new, similarity⟩ := p
  obtain ⟨old', new', similarity'⟩ := q
  cases hold
  cases hnew
  exact congrArg (Pair.mk old new) (hp.similarity_eq.trans hq.similarity_eq.symm)

namespace IsStableMatching

/-- An eligible pair has one of its sides in a pair of a stable matching. -/
theorem covers (h : IsStableMatching content threshold s chosen) (hq : IsEligible content threshold s q) :
    q.old ∈ chosen.map Pair.old ∨ q.new ∈ chosen.map Pair.new := by
  by_cases hmem : q ∈ chosen
  · exact .inl (List.mem_map_of_mem hmem)
  · obtain ⟨p, hp, -, hshared⟩ := h.blocked q hq hmem
    rcases hshared with heq | heq
    · exact .inl (heq ▸ List.mem_map_of_mem hp)
    · exact .inr (heq ▸ List.mem_map_of_mem hp)

/-- If a pair of one stable matching is not in another, then an earlier pair of the other is not in the one. -/
theorem exists_before (h : IsStableMatching content threshold s chosen) (h' : IsStableMatching content threshold s other)
    (hp : p ∈ chosen) (hother : p ∉ other) : ∃ q ∈ other, q ∉ chosen ∧ q.rank < p.rank := by
  obtain ⟨q, hq, hbefore, hshared⟩ := h'.blocked p (h.isEligible p hp) hother
  refine ⟨q, hq, fun hchosen => ?_, (Pair.before_iff (h'.isEligible q hq).isNaN (h.isEligible p hp).isNaN).1 hbefore⟩
  have hsame : q = p := hshared.elim (List.inj_on_of_nodup_map h.nodup_old hchosen hp)
    (List.inj_on_of_nodup_map h.nodup_new hchosen hp)
  exact hother (hsame ▸ hq)

/-- There is only one stable matching. -/
theorem perm (h : IsStableMatching content threshold s chosen) (h' : IsStableMatching content threshold s other) :
    other.Perm chosen := by
  refine (List.perm_ext_iff_of_nodup (List.Nodup.of_map _ h'.nodup_old) (List.Nodup.of_map _ h.nodup_old)).2 ?_
  by_contra hne
  -- The first pair that only one of the two matchings has is blocked in the other one by an earlier pair of this kind.
  obtain ⟨first, hdiffers⟩ := not_forall.1 hne
  have hnonempty : ((chosen ++ other).toFinset.filter fun p => ¬(p ∈ other ↔ p ∈ chosen)).Nonempty := by
    refine ⟨first, Finset.mem_filter.2 ⟨?_, hdiffers⟩⟩
    rw [List.mem_toFinset, List.mem_append]
    tauto
  obtain ⟨least, hleast, hmin⟩ := Finset.exists_min_image _ Pair.rank hnonempty
  have hnone : ∀ q, q ∈ chosen ∧ q ∉ other ∨ q ∈ other ∧ q ∉ chosen → ¬q.rank < least.rank := fun q hq hlt => by
    refine absurd (hmin q (Finset.mem_filter.2 ⟨?_, ?_⟩)) (not_le.2 hlt)
    · rw [List.mem_toFinset, List.mem_append]
      tauto
    · tauto
  by_cases hmem : least ∈ chosen
  · have hother : least ∉ other := fun hin => (Finset.mem_filter.1 hleast).2 (iff_of_true hin hmem)
    obtain ⟨q, hq, hqchosen, hlt⟩ := h.exists_before h' hmem hother
    exact hnone q (.inr ⟨hq, hqchosen⟩) hlt
  · have hother : least ∈ other := by_contra fun hin => (Finset.mem_filter.1 hleast).2 (iff_of_false hin hmem)
    obtain ⟨q, hq, hqother, hlt⟩ := h'.exists_before h hother hmem
    exact hnone q (.inl ⟨hq, hqother⟩) hlt

end IsStableMatching

/-! ## The greedy pairs -/

/-- A pair that is skipped has a used path, or shares a path with a pair that is taken and does not come later. -/
theorem greedyFrom_blocks {usedOld usedNew : List String} {pairs : List Pair}
    (hsorted : pairs.Pairwise fun p q => p.rank ≤ q.rank) (hq : q ∈ pairs)
    (hskipped : q ∉ greedyFrom usedOld usedNew pairs) :
    q.old.path ∈ usedOld ∨ q.new.path ∈ usedNew ∨ ∃ p ∈ greedyFrom usedOld usedNew pairs,
      p.rank ≤ q.rank ∧ (p.old.path = q.old.path ∨ p.new.path = q.new.path) := by
  induction pairs generalizing usedOld usedNew with
  | nil => cases hq
  | cons first rest ih =>
    obtain ⟨hfirst, hrest⟩ := List.pairwise_cons.1 hsorted
    unfold greedyFrom at hskipped ⊢
    split at hskipped
    · next hused =>
      rw [if_pos hused]
      simp only [Bool.or_eq_true, List.contains_iff_mem] at hused
      rcases List.mem_cons.1 hq with rfl | hq
      · exact hused.imp id .inl
      · exact ih hrest hq hskipped
    · next hfree =>
      rw [if_neg hfree]
      obtain ⟨hne, hskipped⟩ := not_or.1 (mt List.mem_cons.2 hskipped)
      have hlater : q ∈ rest := (List.mem_cons.1 hq).resolve_left hne
      rcases ih hrest hlater hskipped with hold | hnew | ⟨p, hp, hrank, hshared⟩
      · rcases List.mem_cons.1 hold with heq | hused
        · exact .inr (.inr ⟨first, List.mem_cons_self, hfirst q hlater, .inl heq.symm⟩)
        · exact .inl hused
      · rcases List.mem_cons.1 hnew with heq | hused
        · exact .inr (.inr ⟨first, List.mem_cons_self, hfirst q hlater, .inr heq.symm⟩)
        · exact .inr (.inl hused)
      · exact .inr (.inr ⟨p, List.mem_cons_of_mem _ hp, hrank, hshared⟩)

/-- The candidates are sorted by their ranks. -/
theorem candidates_eq_mergeSort (threshold : Number) (oldContents newContents : Contents) (s : Sides) :
    candidates threshold oldContents newContents s =
      (s.deleted.flatMap fun old => s.added.filterMap (candidate? threshold oldContents newContents old)).mergeSort
        fun p q => decide (p.rank ≤ q.rank) := by
  have hnumber : ∀ p ∈ s.deleted.flatMap fun old =>
      s.added.filterMap (candidate? threshold oldContents newContents old), p.similarity.isNaN = false := by
    intro p hp
    obtain ⟨-, -, hcandidate⟩ := mem_candidates_iff.1 ((List.mergeSort_perm _ _).mem_iff.2 hp)
    rw [(candidate?_eq_some_iff.1 hcandidate).1]
    exact LineOverlap.isNaN_similarity _ _
  -- The order of sorting is linear only where similarities are numbers, so the candidates are sorted by rank instead.
  have hsort := List.map_mergeSort (f := id) (r := Pair.precedes) (s := fun p q => decide (p.rank ≤ q.rank))
    fun p hp q hq => by rw [Bool.eq_iff_iff, Pair.precedes_iff (hnumber p hp) (hnumber q hq), decide_eq_true_eq]; rfl
  rw [List.map_id, List.map_id] at hsort
  exact hsort

/-- The candidates are listed by their ranks. -/
theorem pairwise_candidates (threshold : Number) (oldContents newContents : Contents) (s : Sides) :
    (candidates threshold oldContents newContents s).Pairwise fun p q => p.rank ≤ q.rank := by
  rw [candidates_eq_mergeSort]
  exact pairwise_mergeSort_key Pair.rank _

/-- The contents of changes at other paths are kept. -/
theorem get?_putContents_of_not_mem {blob : FileChange → Option String} {changes : List FileChange} {path : String}
    (hpath : path ∉ changes.map FileChange.path) (contents : Contents) :
    Record.get? path (putContents content blob contents changes) = Record.get? path contents := by
  induction changes generalizing contents with
  | nil => rfl
  | cons c rest ih =>
    rw [List.map_cons, List.mem_cons, not_or] at hpath
    exact (ih hpath.2 _).trans (Record.get?_put_of_ne hpath.1 _ _)

/-- Changes of different paths have the contents of their blobs. -/
theorem contentOf_putContents {blob : FileChange → Option String} {changes : List FileChange}
    (hpaths : (changes.map FileChange.path).Nodup) {c : FileChange} (hc : c ∈ changes) (contents : Contents) :
    contentOf (putContents content blob contents changes) c = content ((blob c).getD "") := by
  induction changes generalizing contents with
  | nil => cases hc
  | cons first rest ih =>
    rw [List.map_cons, List.nodup_cons] at hpaths
    rcases List.mem_cons.1 hc with rfl | hc
    · rw [contentOf, putContents, List.foldl_cons]
      exact congrArg (·.getD []) ((get?_putContents_of_not_mem hpaths.1 _).trans (Record.get?_put_self _ _ _))
    · exact ih hpaths.2 hc _

section Sides

variable (hdeleted : (s.deleted.map FileChange.path).Nodup) (hadded : (s.added.map FileChange.path).Nodup)

include hdeleted hadded

/-- The candidates are the eligible pairs. -/
theorem mem_candidates_iff_isEligible :
    p ∈ candidates threshold (putContents content FileChange.oldBlob [] s.deleted)
      (putContents content FileChange.newBlob [] s.added) s ↔ IsEligible content threshold s p := by
  rw [mem_candidates_iff, candidate?_eq_some_iff]
  constructor
  · rintro ⟨hold, hnew, hp, holdContent, hnewContent, hthreshold⟩
    rw [contentOf_putContents hdeleted hold] at hp holdContent
    rw [contentOf_putContents hadded hnew] at hp hnewContent
    exact ⟨hold, hnew, holdContent, hnewContent, congrArg Pair.similarity hp, hthreshold⟩
  · intro h
    rw [contentOf_putContents hdeleted h.old_mem, contentOf_putContents hadded h.new_mem]
    exact ⟨h.old_mem, h.new_mem, congrArg (Pair.mk p.old p.new) h.similarity_eq, h.old_ne_nil, h.new_ne_nil,
      h.threshold_le⟩

/-- The greedy pairs are a stable matching. -/
theorem isStableMatching_similarPairs : IsStableMatching content threshold s
    (similarPairs threshold (putContents content FileChange.oldBlob [] s.deleted)
      (putContents content FileChange.newBlob [] s.added) s) := by
  obtain ⟨hmem, hold, hnew⟩ := greedyFrom_spec [] [] (candidates threshold
    (putContents content FileChange.oldBlob [] s.deleted) (putContents content FileChange.newBlob [] s.added) s)
  have heligible : ∀ p ∈ similarPairs threshold (putContents content FileChange.oldBlob [] s.deleted)
      (putContents content FileChange.newBlob [] s.added) s, IsEligible content threshold s p := fun p hp =>
    (mem_candidates_iff_isEligible hdeleted hadded).1 (hmem p hp).1
  refine ⟨heligible, nodup_members hold, nodup_members hnew, fun q hq hskipped => ?_⟩
  have hblocks := greedyFrom_blocks (pairwise_candidates _ _ _ _)
    ((mem_candidates_iff_isEligible hdeleted hadded).2 hq) hskipped
  obtain ⟨p, hp, hrank, hshared⟩ := (hblocks.resolve_left List.not_mem_nil).resolve_left List.not_mem_nil
  have holdSame : p.old.path = q.old.path → p.old = q.old :=
    List.inj_on_of_nodup_map hdeleted (heligible p hp).old_mem hq.old_mem
  have hnewSame : p.new.path = q.new.path → p.new = q.new :=
    List.inj_on_of_nodup_map hadded (heligible p hp).new_mem hq.new_mem
  have hne : p.rank ≠ q.rank := fun heq => by
    obtain ⟨hpathOld, hpathNew⟩ := Pair.paths_of_rank_eq heq
    exact hskipped ((heligible p hp).ext hq (holdSame hpathOld) (hnewSame hpathNew) ▸ hp)
  exact ⟨p, hp, (Pair.before_iff (heligible p hp).isNaN hq.isNaN).2 (lt_of_le_of_ne hrank hne),
    hshared.imp holdSame hnewSame⟩

end Sides

end Stable

/-! ## The whole detection -/

/-- The pairs of similar contents, none if there are too many to compare. -/
def contentPairs (content : String → Bytes) (l : Limits) (s : Sides) : List Pair :=
  if l.excludes s then []
  else similarPairs l.threshold (putContents content FileChange.oldBlob [] s.deleted)
    (putContents content FileChange.newBlob [] s.added) s

/-- Pairing by content takes the pairs of similar contents. -/
theorem pairedByContent_eq (content : String → Bytes) (l : Limits) (s : Sides) :
    pairedByContent content l s = s.takeAll (contentPairs content l s) := by
  unfold pairedByContent contentPairs
  split <;> rfl

/-- The pairs of similar contents are pairs of the sides. -/
theorem mem_of_mem_contentPairs {content : String → Bytes} {l : Limits} {s : Sides} {p : Pair}
    (hp : p ∈ contentPairs content l s) : p.old ∈ s.deleted ∧ p.new ∈ s.added := by
  unfold contentPairs at hp
  split at hp
  · cases hp
  · obtain ⟨hold, hnew, -⟩ := mem_candidates_iff.1 ((greedyFrom_spec [] [] _).1 p hp).1
    exact ⟨hold, hnew⟩

/-- For given contents the pairs of similar contents are taken from what equal blobs leave. -/
theorem paired_eq_takeAll (content : String → Bytes) (l : Limits) (changes : List FileChange) :
    paired content l changes = ((leftOf changes).takeAll (contentPairs content l (leftOf changes))).changes := by
  unfold paired
  split
  · rw [pairedByContent_eq]
  · next hclosed =>
    have hnone : contentPairs content l (leftOf changes) = [] := by
      refine List.eq_nil_iff_forall_not_mem.2 fun p hp => hclosed ?_
      obtain ⟨hold, hnew⟩ := mem_of_mem_contentPairs hp
      simp [Sides.isOpen, List.ne_nil_of_mem hold, List.ne_nil_of_mem hnew]
    rw [hnone]
    rfl

/-- Whether a change is a rename. -/
def isRename (c : FileChange) : Bool := c.kind == .renamed

/-- A rename neither adds nor deletes a blob. -/
theorem isOther_of_isRename (c : FileChange) (h : isRename c = true) : isOther c = true := by
  cases hkind : c.kind <;> simp_all [isRename, isOther, isAddition, isDeletion]

/-- The renames of a result are those that were listed and those of both phases. -/
theorem filter_isRename_perm (changes : List FileChange) (pairs : List Pair) :
    (((leftOf changes).takeAll pairs).changes.filter isRename).Perm (changes.filter isRename ++
      ((exactPairs (Sides.ofChanges changes)).map Pair.change ++ pairs.map Pair.change)) := by
  have hrenames : ∀ ps : List Pair, (ps.map Pair.change).filter isRename = ps.map Pair.change := fun ps =>
    List.filter_eq_self.2 fun c hc => by
      obtain ⟨p, -, rfl⟩ := List.mem_map.1 hc
      rfl
  have hsettled := ((Sides.parted_leftOf changes).takeAll pairs).filter_settled_perm isOther_of_isRename
  rwa [Sides.settled_takeAll, leftOf, Sides.settled_takeAll, List.filter_append, List.filter_append,
    Sides.filter_settled_ofChanges isOther_of_isRename, hrenames, hrenames, List.append_assoc] at hsettled

section Reconcile

variable {σ : Type} [HasSession σ] {load : String → Run σ Bytes} {content : String → Bytes}

/-- Pairing by content makes the stable matching of what pairs of equal blobs leave of changes at different paths, if
the contents of all blobs can be loaded. The renames of a result are those of the pairs of equal blobs and of this
matching. It is empty if there are too many pairs to compare; otherwise it is the only stable matching, so that no
eligible pair has both of its sides unpaired. -/
theorem similar_contents_stable (l : Limits) {changes : List FileChange} (hpaths : (changes.map FileChange.path).Nodup)
    (hload : ∀ c ∈ changes, ∀ id, c.oldBlob = some id ∨ c.newBlob = some id →
      ∀ t, ∃ t', (load id).Returns t (content id) t') :
    ∃ chosen result, (∀ t, ∃ t', (reconcile load l changes).Returns t result t') ∧
      result = ((leftOf changes).takeAll chosen).changes ∧
      (result.filter isRename).Perm (changes.filter isRename ++
        ((exactPairs (Sides.ofChanges changes)).map Pair.change ++ chosen.map Pair.change)) ∧
      if l.maxPairs.lt (.whole ((leftOf changes).deleted.length * (leftOf changes).added.length : Nat)) then chosen = []
      else IsStableMatching content l.threshold (leftOf changes) chosen ∧
        (∀ other, IsStableMatching content l.threshold (leftOf changes) other → other.Perm chosen) ∧
        ∀ q, IsEligible content l.threshold (leftOf changes) q →
          q.old ∈ chosen.map Pair.old ∨ q.new ∈ chosen.map Pair.new := by
  have hgives : Run.Gives True (fun _ : σ => True) (reconcile load l changes) (paired content l changes) :=
    gives_reconcile (fun _ _ _ => trivial) l fun c hc id hid => Run.gives_of_returns (hload c hc id hid)
  refine ⟨contentPairs content l (leftOf changes), paired content l changes, fun t => hgives.returns trivial t trivial,
    paired_eq_takeAll content l changes, ?_, ?_⟩
  · rw [paired_eq_takeAll]
    exact filter_isRename_perm changes _
  · have hdeleted : ((leftOf changes).deleted.map FileChange.path).Nodup :=
      hpaths.sublist (((Sides.deleted_takeAll_sublist _ _).trans List.filter_sublist).map _)
    have hadded : ((leftOf changes).added.map FileChange.path).Nodup :=
      hpaths.sublist (((Sides.added_takeAll_sublist _ _).trans List.filter_sublist).map _)
    split
    · next hexcludes => exact if_pos hexcludes
    · next hcompares =>
      have hstable : IsStableMatching content l.threshold (leftOf changes) (contentPairs content l (leftOf changes)) := by
        rw [contentPairs, Limits.excludes, if_neg hcompares]
        exact isStableMatching_similarPairs hdeleted hadded
      exact ⟨hstable, fun other hother => hstable.perm hother, fun q hq => hstable.covers hq⟩

/-- Each addition is similar to both deletions, so that pairs compete for both sides. -/
theorem similar_contents_stable_competing :
    let moved := [⟨.deleted, "d", none, some "1\n2\n3\n4", none, .zero⟩, ⟨.deleted, "c", none, some "1\n2\n3\n5", none, .zero⟩,
      ⟨.added, "a", none, none, some "1\n2\n3\n4\n5", .zero⟩, ⟨.added, "b", none, none, some "1\n2\n5\n6", .zero⟩]
    (moved.map FileChange.path).Nodup ∧
      (∀ (id : String) (t : Session), ∃ t', Run.Returns (pure id.toUTF8.toList) t id.toUTF8.toList t') ∧
      ∃ chosen result, (∀ t : Session, ∃ t', (reconcile (fun id => pure id.toUTF8.toList) {} moved).Returns t result t') ∧
        result = ((leftOf moved).takeAll chosen).changes ∧
        IsStableMatching (fun id => id.toUTF8.toList) (.real (Binary64.ofRatio false 1 2)) (leftOf moved) chosen := by
  intro moved
  have hpaths : (moved.map FileChange.path).Nodup := by decide
  have hload : ∀ (id : String) (t : Session), ∃ t', Run.Returns (pure id.toUTF8.toList) t id.toUTF8.toList t' :=
    fun _ t => ⟨t, Run.returns_pure.2 ⟨rfl, rfl⟩⟩
  obtain ⟨chosen, result, hreturns, hresult, -, hstable⟩ :=
    similar_contents_stable {} hpaths fun _ _ id _ => hload id
  have hdeleted : (leftOf moved).deleted.length ≤ 2 := (Sides.deleted_takeAll_sublist _ _).length_le
  have hadded : (leftOf moved).added.length ≤ 2 := (Sides.added_takeAll_sublist _ _).length_le
  have hfew : (Number.whole 10000).lt
      (.whole ((leftOf moved).deleted.length * (leftOf moved).added.length : Nat)) = false := by
    have hproduct := Nat.mul_le_mul hdeleted hadded
    rw [Number.lt_whole, decide_eq_false_iff_not]
    omega
  rw [if_neg (by rw [hfew]; exact Bool.false_ne_true)] at hstable
  exact ⟨hpaths, hload, chosen, result, hreturns, hresult, hstable.1⟩

end Reconcile

end Renames

end Hotspots
