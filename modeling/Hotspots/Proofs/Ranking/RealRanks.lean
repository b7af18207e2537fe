import Hotspots.Proofs.Ranking.DenseCount
import Mathlib.Data.Set.Card

/-!
# Dense ranks of real values

The dense rank of a real value that is a number is how many distinct numbers are less than it, and of descending ranks
how many are greater; not-a-number comes after all numbers in either direction (`ranks_of_reals`). Numbers are distinct
if they are not equal, so that both zeros are one. Equal numbers share a rank, and all that is not-a-number shares one;
no rank is left out, and ranks move with their values if these are put in another order.
-/

namespace Hotspots

/-- The real values that are equal to a number, which are the same for equal numbers such as the two zeros. -/
def Binary64.equals (x : Binary64) : Set Binary64 := {y | x.eq y = true}

namespace DenseRank

/-- How many distinct numbers there are among the real values with a property. Equal ones count once. -/
noncomputable def distinctCount (xs : List Binary64) (p : Binary64 → Bool) : Nat :=
  (Binary64.equals '' {y | y ∈ xs ∧ p y = true}).ncard

/-- The dense rank of a value among real values: how many distinct numbers come before it. Not-a-number comes after all
numbers. -/
noncomputable def rankAmong (precedes : Binary64 → Binary64 → Bool) (xs : List Binary64) (x : Binary64) : Nat :=
  if x.isNaN then distinctCount xs fun y => !y.isNaN else distinctCount xs fun y => precedes y x

/-! ## The two directions -/

/-- A direction of ranking: the order of real values in front of a number, and where numbers stand in it. -/
structure IsDirection {L : Type} [LinearOrder L] (precedes : Binary64 → Binary64 → Bool)
    (standing : Number → WithTop L) : Prop where
  /-- In front of a number there is what stands before it. -/
  precedes_iff : ∀ x y, y.isNaN = false → (precedes x y = true ↔ standing (.real x) < standing (.real y))
  /-- Numbers stand at one place in one direction if they do so in the other. -/
  eq_iff : ∀ a b, standing a = standing b ↔ a.standing = b.standing
  /-- Not-a-number stands at the end. -/
  eq_top_iff : ∀ x, standing (.real x) = ⊤ ↔ x.isNaN = true

/-- A real value stands at the end exactly if it is not-a-number. -/
theorem standing_eq_top_iff (x : Binary64) : (Number.real x).standing = ⊤ ↔ x.isNaN = true := by
  unfold Number.standing
  cases hx : x.isNaN with
  | true => simp [isNaN, hx]
  | false => simp [isNaN, hx]

/-- A number is equal to the values that stand where it does. -/
theorem eq_iff_standing {x y : Binary64} (hx : x.isNaN = false) :
    x.eq y = true ↔ (Number.real y).standing = (Number.real x).standing := by
  cases hy : y.isNaN with
  | true =>
    have htop := (standing_eq_top_iff y).2 hy
    have hne : (Number.real x).standing ≠ ⊤ := fun h => by simp [(standing_eq_top_iff x).1 h] at hx
    rw [htop]
    refine iff_of_false ?_ hne.symm
    cases y with
    | nan => cases x <;> exact Bool.false_ne_true
    | _ => cases hy
  | false =>
    rw [real_eq_iff hx hy, eq_comm]
    simp [Number.standing, isNaN, hx, hy, Number.place]

/-- Ascending ranks go by standings. -/
theorem isDirection_ascending : IsDirection Binary64.lt Number.standing where
  precedes_iff x y hy := by
    cases hx : x.isNaN with
    | true =>
      obtain rfl : x = .nan := by cases x <;> first | rfl | cases hx
      rw [(standing_eq_top_iff _).2 hx]
      exact iff_of_false Bool.false_ne_true not_top_lt
    | false => simp [real_lt_iff hx hy, Number.standing, isNaN, hx, hy, Number.place]
  eq_iff _ _ := Iff.rfl
  eq_top_iff := standing_eq_top_iff

/-- Descending ranks go by standings from the greatest. -/
theorem isDirection_descending : IsDirection (flip Binary64.lt) Number.fallingStanding where
  precedes_iff x y hy := by
    unfold Number.fallingStanding
    cases hx : x.isNaN with
    | true =>
      obtain rfl : x = .nan := by cases x <;> first | rfl | cases hx
      rw [(standing_eq_top_iff _).2 hx]
      refine iff_of_false ?_ not_top_lt
      cases y <;> exact Bool.false_ne_true
    | false => simp [flip, real_lt_iff hy hx, Number.standing, isNaN, hx, hy, Number.place]
  eq_iff _ _ := (WithTop.map_injective OrderDual.toDual.injective).eq_iff
  eq_top_iff x := WithTop.map_eq_top_iff.trans (standing_eq_top_iff x)

section Direction

variable {L : Type} [LinearOrder L] {precedes : Binary64 → Binary64 → Bool} {standing : Number → WithTop L}
  {xs ys : List Binary64} {x y : Binary64}

namespace IsDirection

/-- A number is equal to the values of its standing. -/
theorem equals_eq (h : IsDirection precedes standing) (hx : x.isNaN = false) :
    x.equals = {y | standing (.real y) = standing (.real x)} := by
  ext y
  exact (eq_iff_standing hx).trans (h.eq_iff _ _).symm

/-- The distinct numbers that stand before some point are as many as the standings before it. -/
theorem distinctCount_eq_card (h : IsDirection precedes standing) {p : Binary64 → Bool} {point : WithTop L}
    (hp : ∀ y, p y = true ↔ standing (.real y) < point) :
    distinctCount xs p = ((xs.map fun y => standing (.real y)).toFinset.filter (· < point)).card := by
  have hnumber : ∀ y, standing (.real y) < point → y.isNaN = false := by
    intro y hy
    rw [← Bool.not_eq_true, ← h.eq_top_iff]
    exact ne_top_of_lt hy
  -- A standing before the point stands for the numbers that have it, all of which are equal.
  have himage : Binary64.equals '' {y | y ∈ xs ∧ p y = true} = (fun s => {z | standing (.real z) = s}) ''
      (((xs.map fun y => standing (.real y)).toFinset.filter (· < point) : Finset (WithTop L)) : Set (WithTop L)) := by
    ext numbers
    simp only [Set.mem_image, Set.mem_ofPred_eq, Finset.coe_filter, List.mem_toFinset, List.mem_map]
    constructor
    · rintro ⟨y, ⟨hy, hpy⟩, rfl⟩
      exact ⟨_, ⟨⟨y, hy, rfl⟩, (hp y).1 hpy⟩, (h.equals_eq (hnumber y ((hp y).1 hpy))).symm⟩
    · rintro ⟨_, ⟨⟨y, hy, rfl⟩, hlt⟩, rfl⟩
      exact ⟨y, ⟨hy, (hp y).2 hlt⟩, h.equals_eq (hnumber y hlt)⟩
  have hinjective : Set.InjOn (fun s => {z | standing (.real z) = s})
      (((xs.map fun y => standing (.real y)).toFinset.filter (· < point) : Finset (WithTop L)) : Set (WithTop L)) := by
    intro s hs t _ hst
    obtain ⟨y, -, rfl⟩ := List.mem_map.1 (List.mem_toFinset.1 (Finset.mem_filter.1 hs).1)
    exact (Set.ext_iff.1 hst y).1 rfl
  rw [distinctCount, himage, hinjective.ncard_image, Set.ncard_coe_finset]

/-- The number of different standings before that of a value is the number of the distinct numbers before it. -/
theorem rankOf_eq (h : IsDirection precedes standing) (xs : List Binary64) (x : Binary64) :
    rankOf (fun y => standing (.real y)) xs x = rankAmong precedes xs x := by
  rw [rankOf, rankAmong]
  cases hnan : x.isNaN with
  | true =>
    rw [if_pos rfl]
    refine (h.distinctCount_eq_card fun y => ?_).symm
    rw [(h.eq_top_iff x).2 hnan, lt_top_iff_ne_top, ne_eq, h.eq_top_iff, Bool.not_eq_true', Bool.not_eq_true]
  | false =>
    rw [if_neg Bool.false_ne_true]
    exact (h.distinctCount_eq_card fun y => h.precedes_iff y x hnan).symm

/-- Ranks are ordered as values stand. -/
theorem rankAmong_le_iff (h : IsDirection precedes standing) (hx : x ∈ xs) (hy : y ∈ xs) :
    rankAmong precedes xs x ≤ rankAmong precedes xs y ↔ standing (.real x) ≤ standing (.real y) := by
  rw [← h.rankOf_eq, ← h.rankOf_eq, rankOf_le_iff hx hy]

/-- Not-a-number has a greater rank than every number. -/
theorem rankAmong_lt_of_isNaN (h : IsDirection precedes standing) (hx : x ∈ xs) (hy : y ∈ xs)
    (hnumber : x.isNaN = false) (hnan : y.isNaN = true) : rankAmong precedes xs x < rankAmong precedes xs y := by
  rw [← not_le, h.rankAmong_le_iff hy hx, (h.eq_top_iff y).2 hnan, top_le_iff, h.eq_top_iff, hnumber]
  exact Bool.false_ne_true

/-- Values share a rank exactly if they are equal or both are not-a-number. -/
theorem rankAmong_eq_iff (h : IsDirection precedes standing) (hx : x ∈ xs) (hy : y ∈ xs) :
    rankAmong precedes xs x = rankAmong precedes xs y ↔
      x.eq y = true ∨ x.isNaN = true ∧ y.isNaN = true := by
  rw [le_antisymm_iff, h.rankAmong_le_iff hx hy, h.rankAmong_le_iff hy hx, ← le_antisymm_iff]
  cases hnan : x.isNaN with
  | true =>
    have hnone : x.eq y = false := by cases x <;> first | rfl | cases hnan
    rw [(h.eq_top_iff x).2 hnan, eq_comm, h.eq_top_iff, hnone]
    simp
  | false =>
    rw [eq_iff_standing hnan, eq_comm, h.eq_iff]
    simp

/-- The ranks in a direction are the numbers below that of the standings. -/
theorem exists_rankAmong_iff (h : IsDirection precedes standing) (xs : List Binary64) (n : Nat) :
    (∃ x ∈ xs, rankAmong precedes xs x = n) ↔ n < (xs.map fun y => standing (.real y)).toFinset.card := by
  simp only [← exists_rankOf_iff, h.rankOf_eq]

end IsDirection

/-- The ranks of values do not depend on the order in which these are listed. -/
theorem rankAmong_perm (hperm : ys.Perm xs) : rankAmong precedes ys = rankAmong precedes xs := by
  funext x
  simp only [rankAmong, distinctCount, hperm.mem_iff]

end Direction

/-! ## The ranks that are given -/

/-- Real values are ranked as they are. -/
theorem mapM_realOf_reals (xs : List Binary64) : (xs.map Number.real).mapM realOf = .ok xs := by
  induction xs with
  | nil => rfl
  | cons x rest ih =>
    rw [List.map_cons, List.mapM_cons, ih]
    rfl

/-- Ascending ranks of real values count the distinct numbers that are less. -/
theorem ascending_reals (xs : List Binary64) : ascending (xs.map .real) = .ok (xs.map (rankAmong Binary64.lt xs)) := by
  have hranks : ranks (xs.map .real) = xs.map (rankAmong Binary64.lt xs) := by
    rw [ranks_map_eq]
    exact List.map_congr_left fun x _ => isDirection_ascending.rankOf_eq xs x
  cases xs with
  | nil => rfl
  | cons x rest =>
    have hexact : isExact ((x :: rest).map .real) = false := by simp [isExact]
    rw [ascending, hexact, if_neg Bool.false_ne_true, mapM_realOf_reals, ← hranks]
    rfl

/-- Descending ranks of real values count the distinct numbers that are greater. -/
theorem descending_reals (xs : List Binary64) :
    descending (xs.map .real) = .ok (xs.map (rankAmong (flip Binary64.lt) xs)) := by
  have hranks : ranks (xs.map fun x => .real x.neg) = xs.map (rankAmong (flip Binary64.lt) xs) := by
    rw [ranks_neg_eq_map]
    exact List.map_congr_left fun x _ => isDirection_descending.rankOf_eq xs x
  rw [descending, mapM_realOf_reals, ← hranks]
  rfl

/-- Values have as many standings from the greatest as from the smallest. -/
theorem card_fallingStanding (xs : List Binary64) :
    (xs.map fun y => (Number.real y).fallingStanding).toFinset.card =
      (xs.map fun y => (Number.real y).standing).toFinset.card := by
  have himage : (xs.map fun y => (Number.real y).fallingStanding).toFinset =
      (xs.map fun y => (Number.real y).standing).toFinset.image (WithTop.map OrderDual.toDual) := by
    ext standing
    simp [Number.fallingStanding]
  rw [himage, Finset.card_image_of_injective _ (WithTop.map_injective OrderDual.toDual.injective)]

/-- The ranks of values are 0 up to some number, which is the same in both directions. -/
theorem exists_last_rank {xs : List Binary64} (hne : xs ≠ []) : ∃ k, ∀ n,
    ((∃ x ∈ xs, rankAmong Binary64.lt xs x = n) ↔ n ≤ k) ∧
      ((∃ x ∈ xs, rankAmong (flip Binary64.lt) xs x = n) ↔ n ≤ k) := by
  have hup := isDirection_ascending.exists_rankAmong_iff xs
  have hdown := isDirection_descending.exists_rankAmong_iff xs
  rw [card_fallingStanding] at hdown
  generalize (xs.map fun y => (Number.real y).standing).toFinset.card = count at hup hdown
  obtain ⟨x, hx⟩ := List.exists_mem_of_ne_nil xs hne
  have hpos := (hup _).1 ⟨x, hx, rfl⟩
  exact ⟨count - 1, fun n => ⟨(hup n).trans (by omega), (hdown n).trans (by omega)⟩⟩

/-! ## The law -/

/-- Ranks tell values apart: two values share a rank exactly if they are equal or both are not-a-number, whose rank is
after those of all numbers. -/
structure TellsApart (xs : List Binary64) (rank : Binary64 → Nat) : Prop where
  eq_iff : ∀ x ∈ xs, ∀ y ∈ xs, rank x = rank y ↔ x.eq y = true ∨ x.isNaN = true ∧ y.isNaN = true
  lt_of_isNaN : ∀ x ∈ xs, ∀ y ∈ xs, x.isNaN = false → y.isNaN = true → rank x < rank y

/-- Ranks in a direction tell values apart. -/
theorem IsDirection.tellsApart {L : Type} [LinearOrder L] {precedes : Binary64 → Binary64 → Bool}
    {standing : Number → WithTop L} (h : IsDirection precedes standing) (xs : List Binary64) :
    TellsApart xs (rankAmong precedes xs) where
  eq_iff _ hx _ hy := h.rankAmong_eq_iff hx hy
  lt_of_isNaN _ hx _ hy := h.rankAmong_lt_of_isNaN hx hy

/-- Ascending ranks of real values count the distinct numbers less than each number, descending ranks the greater ones,
and both zeros count as one number. Equal numbers alone share a rank, but for not-a-number, of which all share the rank
after the others. The ranks of some values are 0 up to the same number in both directions and none is left out, and
values in another order have their ranks in that order. -/
theorem ranks_of_reals (xs : List Binary64) :
    ascending (xs.map .real) = .ok (xs.map (rankAmong Binary64.lt xs)) ∧
    descending (xs.map .real) = .ok (xs.map (rankAmong (flip Binary64.lt) xs)) ∧
    (Binary64.finite true 0).equals = (Binary64.finite false 0).equals ∧
    TellsApart xs (rankAmong Binary64.lt xs) ∧
    TellsApart xs (rankAmong (flip Binary64.lt) xs) ∧
    (xs ≠ [] → ∃ k, ∀ n, ((∃ x ∈ xs, rankAmong Binary64.lt xs x = n) ↔ n ≤ k) ∧
      ((∃ x ∈ xs, rankAmong (flip Binary64.lt) xs x = n) ↔ n ≤ k)) ∧
    ∀ ys : List Binary64, ys.Perm xs →
      ascending (ys.map .real) = .ok (ys.map (rankAmong Binary64.lt xs)) ∧
      descending (ys.map .real) = .ok (ys.map (rankAmong (flip Binary64.lt) xs)) := by
  refine ⟨ascending_reals xs, descending_reals xs, ?_, isDirection_ascending.tellsApart xs,
    isDirection_descending.tellsApart xs, exists_last_rank, fun ys hperm => ?_⟩
  · rw [isDirection_ascending.equals_eq rfl, isDirection_ascending.equals_eq rfl]
    rfl
  · rw [ascending_reals, descending_reals, rankAmong_perm hperm, rankAmong_perm hperm]
    exact ⟨rfl, rfl⟩

/-- Real values of all sorts: both zeros, one, an infinity and not-a-number twice. -/
def mixedReals : List Binary64 :=
  [.finite true 0, .finite false Binary64.one, .nan, .finite false 0, .infinite true, .nan]

/-- Among values of all sorts the zeros share a rank and not-a-number has the last one, in either direction and
order. -/
theorem ranks_of_mixed_reals :
    mixedReals.map (rankAmong Binary64.lt mixedReals) = [1, 2, 3, 1, 0, 3] ∧
    mixedReals.map (rankAmong (flip Binary64.lt) mixedReals) = [1, 0, 3, 1, 2, 3] ∧
    (.zero ∈ mixedReals ∧ .nan ∈ mixedReals ∧ Binary64.zero.isNaN = false ∧ Binary64.nan.isNaN = true ∧
      rankAmong (flip Binary64.lt) mixedReals .zero < rankAmong (flip Binary64.lt) mixedReals .nan) ∧
    (mixedReals ≠ [] ∧ ∃ k, ∀ n, (∃ x ∈ mixedReals, rankAmong Binary64.lt mixedReals x = n) ↔ n ≤ k) ∧
    mixedReals.reverse.Perm mixedReals ∧ descending (mixedReals.reverse.map .real) =
      .ok (mixedReals.reverse.map (rankAmong (flip Binary64.lt) mixedReals)) := by
  obtain ⟨-, -, -, -, htells, hlast, hperm⟩ := ranks_of_reals mixedReals
  have hup : mixedReals.map (rankOf (fun y => (Number.real y).standing) mixedReals) = [1, 2, 3, 1, 0, 3] := by
    decide +kernel
  have hdown : mixedReals.map (rankOf (fun y => (Number.real y).fallingStanding) mixedReals) = [1, 0, 3, 1, 2, 3] := by
    decide +kernel
  have hzero : .zero ∈ mixedReals := by simp [mixedReals, Binary64.zero]
  have hnan : .nan ∈ mixedReals := by simp [mixedReals]
  have hne : mixedReals ≠ [] := List.cons_ne_nil _ _
  obtain ⟨k, hk⟩ := hlast hne
  refine ⟨?_, ?_, ⟨hzero, hnan, rfl, rfl, htells.lt_of_isNaN _ hzero _ hnan rfl rfl⟩, ⟨hne, k, fun n => (hk n).1⟩,
    List.reverse_perm _, (hperm _ (List.reverse_perm _)).2⟩
  · rw [← hup]
    exact List.map_congr_left fun x _ => (isDirection_ascending.rankOf_eq mixedReals x).symm
  · rw [← hdown]
    exact List.map_congr_left fun x _ => (isDirection_descending.rankOf_eq mixedReals x).symm

end DenseRank

end Hotspots
