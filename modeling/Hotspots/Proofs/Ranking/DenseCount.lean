import Hotspots.Proofs.Ranking.DenseOrder
import Hotspots.Proofs.Record.Sorted
import Mathlib.Data.Finset.Card
import Mathlib.Data.Finset.Dedup

/-!
# Dense ranks count what comes before

Numbers are ranked by their standing: their place, and after all places not-a-number. The list of the distinct values
has every standing once and in order, so that the index of a value in it, which is its dense rank, is the number of
different standings before its own (`ranks_eq_map`); of negated values it is the number of those after it
(`ranks_neg_eq_map`). Such numbers depend on the order of the standings alone (`rankOf_congr`), and those of a list are
0 up to some number without a gap (`exists_rankOf_iff`).
-/

namespace Hotspots

/-- The place of a number among all numbers, of which not-a-number is the last. -/
def Number.standing (a : Number) : WithTop (WithBot (WithTop Int)) := if DenseRank.isNaN a then ⊤ else a.place

/-- The standing of a number counted from the greatest, with not-a-number at the end all the same. -/
def Number.fallingStanding (a : Number) : WithTop (WithBot (WithTop Int))ᵒᵈ :=
  WithTop.map OrderDual.toDual a.standing

namespace DenseRank

/-! ## Numbers of places -/

section Count

variable {α L M : Type} [LinearOrder L] [LinearOrder M] {place : α → L} {place' : α → M} {cs : List α} {a b c : α}

/-- How many different places of a list come before that of an element. -/
def rankOf (place : α → L) (cs : List α) (c : α) : Nat := ((cs.map place).toFinset.filter (· < place c)).card

/-- An element at an earlier place has a smaller rank. -/
theorem rankOf_lt_of_lt (ha : a ∈ cs) (h : place a < place b) : rankOf place cs a < rankOf place cs b := by
  refine Finset.card_lt_card (Finset.ssubset_iff_of_subset (fun x hx => ?_) |>.2 ⟨place a, ?_, ?_⟩)
  · rw [Finset.mem_filter] at hx ⊢
    exact ⟨hx.1, hx.2.trans h⟩
  · exact Finset.mem_filter.2 ⟨List.mem_toFinset.2 (List.mem_map_of_mem ha), h⟩
  · exact fun hself => lt_irrefl _ (Finset.mem_filter.1 hself).2

/-- Ranks are ordered as places. -/
theorem rankOf_le_iff (ha : a ∈ cs) (hb : b ∈ cs) : rankOf place cs a ≤ rankOf place cs b ↔ place a ≤ place b := by
  constructor
  · intro hle
    by_contra hlt
    exact absurd hle (not_le.2 (rankOf_lt_of_lt hb (not_le.1 hlt)))
  · intro hle
    rcases hle.lt_or_eq with hlt | heq
    · exact (rankOf_lt_of_lt ha hlt).le
    · rw [rankOf, rankOf, heq]

/-- Every rank is below the number of elements. -/
theorem rankOf_lt_length (hc : c ∈ cs) : rankOf place cs c < cs.length := by
  have hplace : place c ∈ (cs.map place).toFinset := List.mem_toFinset.2 (List.mem_map_of_mem hc)
  have hproper : rankOf place cs c < (cs.map place).toFinset.card :=
    Finset.card_lt_card (Finset.filter_ssubset.2 ⟨place c, hplace, lt_irrefl _⟩)
  exact hproper.trans_le ((List.toFinset_card_le _).trans_eq (List.length_map _))

/-- Elements have the same ranks by places that are in the same order. -/
theorem rankOf_congr (h : ∀ a ∈ cs, ∀ b ∈ cs, place' a < place' b ↔ place a < place b) (hc : c ∈ cs) :
    rankOf place' cs c = rankOf place cs c := by
  classical
  have heq : ∀ a ∈ cs, ∀ b ∈ cs, place' a = place' b ↔ place a = place b := fun a ha b hb => by
    simp only [le_antisymm_iff, ← not_lt, h a ha b hb, h b hb a ha]
  -- What stands at one place of the one kind stands at one place of the other kind.
  obtain ⟨g, hg⟩ : ∃ g : L → M, ∀ a ∈ cs, g (place a) = place' a := by
    refine ⟨fun x => if hx : ∃ a ∈ cs, place a = x then place' hx.choose else place' c, fun a ha => ?_⟩
    have hx : ∃ b ∈ cs, place b = place a := ⟨a, ha, rfl⟩
    dsimp only
    rw [dif_pos hx]
    exact (heq _ hx.choose_spec.1 a ha).2 hx.choose_spec.2
  have himage : (cs.map place').toFinset.filter (· < place' c) =
      ((cs.map place).toFinset.filter (· < place c)).image g := by
    ext x
    simp only [Finset.mem_filter, Finset.mem_image, List.mem_toFinset, List.mem_map]
    constructor
    · rintro ⟨⟨a, ha, rfl⟩, hlt⟩
      exact ⟨place a, ⟨⟨a, ha, rfl⟩, (h a ha c hc).1 hlt⟩, hg a ha⟩
    · rintro ⟨_, ⟨⟨a, ha, rfl⟩, hlt⟩, rfl⟩
      exact hg a ha ▸ ⟨⟨a, ha, rfl⟩, (h a ha c hc).2 hlt⟩
  have hinjective : Set.InjOn g ((cs.map place).toFinset.filter (· < place c)) := by
    intro x hx y hy hxy
    rw [Finset.mem_coe, Finset.mem_filter, List.mem_toFinset, List.mem_map] at hx hy
    obtain ⟨⟨a, ha, rfl⟩, -⟩ := hx
    obtain ⟨⟨b, hb, rfl⟩, -⟩ := hy
    rw [hg a ha, hg b hb] at hxy
    exact (heq a ha b hb).1 hxy
  rw [rankOf, rankOf, himage, Finset.card_image_of_injOn hinjective]

/-- In a finite set the numbers of smaller elements are 0 up to the size of the set without a gap. -/
theorem image_card_filter_lt (s : Finset L) :
    (s.image fun x => (s.filter (· < x)).card) = Finset.range s.card := by
  have hlt : ∀ x ∈ s, ∀ y ∈ s, x < y → (s.filter (· < x)).card < (s.filter (· < y)).card := by
    intro x hx y _ hxy
    refine Finset.card_lt_card (Finset.ssubset_iff_of_subset ?_ |>.2 ⟨x, ?_, ?_⟩)
    · exact fun z hz => Finset.mem_filter.2 ⟨(Finset.mem_filter.1 hz).1, (Finset.mem_filter.1 hz).2.trans hxy⟩
    · exact Finset.mem_filter.2 ⟨hx, hxy⟩
    · exact fun hxx => lt_irrefl x (Finset.mem_filter.1 hxx).2
  have hinjective : Set.InjOn (fun x => (s.filter (· < x)).card) s := by
    intro x hx y hy hxy
    rcases lt_trichotomy x y with h | h | h
    · exact absurd hxy (hlt x hx y hy h).ne
    · exact h
    · exact absurd hxy.symm (hlt y hy x hx h).ne
  refine Finset.eq_of_subset_of_card_le (fun n hn => ?_) ?_
  · obtain ⟨x, hx, rfl⟩ := Finset.mem_image.1 hn
    rw [Finset.mem_range]
    exact Finset.card_lt_card (Finset.filter_ssubset.2 ⟨x, hx, lt_irrefl x⟩)
  · rw [Finset.card_range, Finset.card_image_of_injOn hinjective]

/-- The ranks of a list are the numbers below the number of its distinct places. -/
theorem exists_rankOf_iff {n : Nat} :
    (∃ c ∈ cs, rankOf place cs c = n) ↔ n < (cs.map place).toFinset.card := by
  rw [← Finset.mem_range, ← image_card_filter_lt, Finset.mem_image]
  simp only [List.mem_toFinset, List.mem_map, exists_exists_and_eq_and]
  rfl

/-- In a list in strict order the index of an element is the number of elements before it. -/
theorem findIdx_eq_card {l : List L} (hl : l.Pairwise (· < ·)) {x : L} (hx : x ∈ l) :
    l.findIdx (fun y => decide (x = y)) = (l.toFinset.filter (· < x)).card := by
  induction l with
  | nil => cases hx
  | cons y rest ih =>
    obtain ⟨hfirst, hrest⟩ := List.pairwise_cons.1 hl
    rw [List.findIdx_cons, List.toFinset_cons, Finset.filter_insert]
    rcases List.mem_cons.1 hx with rfl | hmem
    · have hnone : rest.toFinset.filter (· < x) = ∅ :=
        Finset.filter_eq_empty_iff.2 fun z hz => (hfirst z (List.mem_toFinset.1 hz)).asymm
      rw [decide_eq_true rfl, if_neg (lt_irrefl x), hnone]
      rfl
    · have hlt := hfirst x hmem
      have hnotMem : y ∉ rest.toFinset.filter (· < x) := fun hy =>
        lt_irrefl y (hfirst y (List.mem_toFinset.1 (Finset.mem_filter.1 hy).1))
      rw [decide_eq_false hlt.ne', if_pos hlt, Finset.card_insert_of_notMem hnotMem, ← ih hrest hmem]
      rfl

end Count

/-! ## Standings -/

/-- A number stands in order in front of the numbers with no smaller standing. -/
theorem inOrder_iff (a b : Number) : inOrder a b = true ↔ a.standing ≤ b.standing := by
  unfold inOrder Number.standing
  cases hb : isNaN b with
  | true => simp
  | false =>
    cases ha : isNaN a with
    | true =>
      have hnone : a.le b = false := by rw [Number.le, compare?_eq_none (.inl ha)]; rfl
      simp [hnone]
    | false => simpa using le_iff_place ha hb

/-- Numbers count as one exactly if they have one standing. -/
theorem isSame_iff (a b : Number) : isSame a b = true ↔ a.standing = b.standing := by
  unfold isSame Number.standing
  cases ha : isNaN a with
  | true =>
    have hnone : a.eq b = false := by rw [Number.eq, compare?_eq_none (.inl ha)]; rfl
    cases hb : isNaN b <;> simp [hnone]
  | false =>
    cases hb : isNaN b with
    | true =>
      have hnone : a.eq b = false := by rw [Number.eq, compare?_eq_none (.inr hb)]; rfl
      simp [hnone]
    | false => simpa using eq_iff_place ha hb

/-- Negated values stand in the order of the values from the greatest. -/
theorem standing_neg_lt_iff (x y : Binary64) : (Number.real x.neg).standing < (Number.real y.neg).standing ↔
    (Number.real x).fallingStanding < (Number.real y).fallingStanding := by
  have hneg : ∀ x : Binary64, x.neg.isNaN = x.isNaN := by
    rintro (_ | _ | _) <;> rfl
  have hstanding : ∀ x : Binary64, (Number.real x).standing =
      (if x.isNaN = true then ⊤ else x.place : WithTop (WithBot (WithTop Int))) := fun _ => rfl
  rw [Number.fallingStanding, Number.fallingStanding, hstanding, hstanding, hstanding, hstanding, hneg, hneg]
  by_cases hx : x.isNaN = true
  · by_cases hy : y.isNaN = true <;> simp [hx, hy]
  · by_cases hy : y.isNaN = true
    · simp [hx, hy]
    · simpa [hx, hy] using place_neg_lt_iff (Bool.not_eq_true _ ▸ hx) (Bool.not_eq_true _ ▸ hy)

/-! ## The list of distinct values -/

/-- The distinct values have the standings of the values. -/
theorem mem_standings_distinctAfter {x : WithTop (WithBot (WithTop Int))} {a : Number} {l : List Number} :
    x ∈ (a :: distinctAfter a l).map Number.standing ↔ x ∈ (a :: l).map Number.standing := by
  induction l generalizing a with
  | nil => rfl
  | cons b rest ih =>
    have hrest := ih (a := b)
    simp only [List.map_cons, List.mem_cons] at hrest ⊢
    rw [distinctAfter]
    split
    · next hsame =>
      rw [← hrest, (isSame_iff a b).1 hsame, or_self_left]
    · rw [List.map_cons, List.mem_cons, hrest]

/-- The distinct ones of values in order are in strict order. -/
theorem pairwise_distinctAfter {a : Number} {l : List Number}
    (h : (a :: l).Pairwise fun a b => a.standing ≤ b.standing) :
    (a :: distinctAfter a l).Pairwise fun a b => a.standing < b.standing := by
  induction l generalizing a with
  | nil => exact List.pairwise_singleton _ _
  | cons b rest ih =>
    obtain ⟨hfirst, hrest⟩ := List.pairwise_cons.1 h
    have hstrict := ih hrest
    have hafter := (List.pairwise_cons.1 hstrict).1
    rw [distinctAfter]
    split
    · next hsame =>
      refine List.pairwise_cons.2 ⟨fun v hv => ?_, (List.pairwise_cons.1 hstrict).2⟩
      rw [(isSame_iff a b).1 hsame]
      exact hafter v hv
    · next hother =>
      have hlt : a.standing < b.standing :=
        lt_of_le_of_ne (hfirst b List.mem_cons_self) fun heq => hother ((isSame_iff a b).2 heq)
      refine List.pairwise_cons.2 ⟨fun v hv => ?_, hstrict⟩
      rcases List.mem_cons.1 hv with rfl | hv
      · exact hlt
      · exact hlt.trans (hafter v hv)

/-- The distinct values are in strict order. -/
theorem pairwise_distinct (values : List Number) : ((distinct values).map Number.standing).Pairwise (· < ·) := by
  have hsort : inOrder = fun a b => decide (a.standing ≤ b.standing) := by
    funext a b
    rw [Bool.eq_iff_iff, inOrder_iff, decide_eq_true_eq]
  have hsorted : (values.mergeSort inOrder).Pairwise fun a b => a.standing ≤ b.standing := by
    rw [hsort]
    exact pairwise_mergeSort_key _ _
  rw [List.pairwise_map, distinct]
  cases hl : values.mergeSort inOrder with
  | nil => exact List.Pairwise.nil
  | cons a rest => exact pairwise_distinctAfter (hl ▸ hsorted)

/-- The distinct values have every standing that a value has. -/
theorem mem_standings_distinct {x : WithTop (WithBot (WithTop Int))} {values : List Number} :
    x ∈ (distinct values).map Number.standing ↔ x ∈ values.map Number.standing := by
  have hperm := (List.mergeSort_perm values inOrder).map Number.standing
  rw [← hperm.mem_iff, distinct]
  cases values.mergeSort inOrder with
  | nil => rfl
  | cons a rest => exact mem_standings_distinctAfter

/-! ## The counting form -/

/-- The dense rank of a value is the number of different standings before its own. -/
theorem ranks_eq_map (values : List Number) : ranks values = values.map (rankOf Number.standing values) := by
  refine List.map_congr_left fun v hv => ?_
  have hsame : isSame v = (fun x => decide (v.standing = x)) ∘ Number.standing := by
    funext w
    rw [Function.comp_apply, Bool.eq_iff_iff, isSame_iff, decide_eq_true_eq]
  have hstandings : ((distinct values).map Number.standing).toFinset = (values.map Number.standing).toFinset := by
    ext x
    rw [List.mem_toFinset, List.mem_toFinset, mem_standings_distinct]
  have hmem := mem_standings_distinct.2 (List.mem_map_of_mem (f := Number.standing) hv)
  rw [rankOf, ← hstandings, ← findIdx_eq_card (pairwise_distinct values) hmem, List.findIdx_map, hsame]

/-- The dense ranks of elements by a value of theirs. -/
theorem ranks_map_eq {α : Type} (value : α → Number) (cs : List α) :
    ranks (cs.map value) = cs.map (rankOf (fun c => (value c).standing) cs) := by
  rw [ranks_eq_map, List.map_map]
  refine List.map_congr_left fun c _ => ?_
  rw [Function.comp_apply, rankOf, rankOf, List.map_map]
  rfl

/-- The dense rank of a negated value is the number of different standings after that of the value. -/
theorem ranks_neg_eq_map {α : Type} (value : α → Binary64) (cs : List α) :
    ranks (cs.map fun c => .real (value c).neg) =
      cs.map (rankOf (fun c => (Number.real (value c)).fallingStanding) cs) := by
  rw [ranks_map_eq]
  exact List.map_congr_left fun c hc => rankOf_congr (fun a _ b _ => standing_neg_lt_iff _ _) hc

end DenseRank

end Hotspots
