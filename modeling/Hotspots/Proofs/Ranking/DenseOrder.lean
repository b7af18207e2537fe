import Hotspots.Ranking.DenseRank
import Mathlib.Algebra.Order.Ring.Int
import Mathlib.Data.List.Basic
import Mathlib.Data.Int.ConditionallyCompleteOrder
import Mathlib.Order.Compare
import Mathlib.Order.ConditionallyCompleteLattice.Indexed

/-!
# The order of numbers

A number that is not not-a-number has a place in a linear order, which is its signed units or one of the two ends.
Numbers of either kind compare as their places do (`DenseRank.lt_iff_place`, `DenseRank.eq_iff_place`), negation turns
the places around, and nothing compares with not-a-number.
-/

namespace Hotspots

/-- The place of a value among the values of the format: its signed units, between the two infinities. -/
def Binary64.place : Binary64 → WithBot (WithTop Int)
  | .nan => ⊤
  | .infinite negative => if negative then ⊥ else ⊤
  | .finite negative units => ((signedUnits negative units : Int) : WithTop Int)

/-- The place of a number: an integer counts its units. -/
def Number.place : Number → WithBot (WithTop Int)
  | .whole i => ((i * Binary64.one : Int) : WithTop Int)
  | .real x => x.place

/-- Real values compare as numbers as they compare. -/
theorem Number.lt_real (x y : Binary64) : Number.lt (.real x) (.real y) = x.lt y := by
  simp only [Number.lt, Number.compare?]
  split
  · next hlt => simp [hlt]
  · next hlt => split <;> (try split) <;> simp [hlt]

namespace DenseRank

/-! ## Places of numbers -/

/-- One is a positive number of units. -/
theorem one_pos : (0 : Int) < (Binary64.one : Int) := by
  exact Int.natCast_pos.2 (Nat.two_pow_pos _)

/-- Every integer is below the upper end. -/
theorem coe_lt_top (i : Int) : ((i : WithTop Int) : WithBot (WithTop Int)) < ⊤ :=
  WithBot.coe_lt_coe.2 (WithTop.coe_lt_top i)

/-- Real values compare as their places. -/
theorem real_lt_iff {x y : Binary64} (hx : x.isNaN = false) (hy : y.isNaN = false) :
    x.lt y = true ↔ x.place < y.place := by
  cases x with
  | nan => cases hx
  | infinite s =>
    cases y with
    | nan => cases hy
    | infinite t => cases s <;> cases t <;> simp [Binary64.lt, Binary64.place]
    | finite t v => cases s <;> simp [Binary64.lt, Binary64.place]
  | finite s u =>
    cases y with
    | nan => cases hy
    | infinite t => cases t <;> simp [Binary64.lt, Binary64.place, coe_lt_top]
    | finite t v => simp [Binary64.lt, Binary64.place]

/-- Real values are equal when their places are. -/
theorem real_eq_iff {x y : Binary64} (hx : x.isNaN = false) (hy : y.isNaN = false) :
    x.eq y = true ↔ x.place = y.place := by
  cases x with
  | nan => cases hx
  | infinite s =>
    cases y with
    | nan => cases hy
    | infinite t => cases s <;> cases t <;> simp [Binary64.eq, Binary64.place]
    | finite t v => cases s <;> simp [Binary64.eq, Binary64.place]
  | finite s u =>
    cases y with
    | nan => cases hy
    | infinite t => cases t <;> simp [Binary64.eq, Binary64.place]
    | finite t v => simp [Binary64.eq, Binary64.place]

/-- One real value is at most another when its place is. -/
theorem real_le_iff {x y : Binary64} (hx : x.isNaN = false) (hy : y.isNaN = false) :
    x.le y = true ↔ x.place ≤ y.place := by
  rw [Binary64.le, Bool.or_eq_true, real_lt_iff hx hy, real_eq_iff hx hy, le_iff_lt_or_eq]

/-- An integer compares with a real value as their places. -/
theorem compareInt?_eq_lt_iff (i : Int) {x : Binary64} (hx : x.isNaN = false) :
    Binary64.compareInt? i x = some .lt ↔ (Number.whole i).place < x.place := by
  cases x with
  | nan => cases hx
  | infinite s =>
    rw [Number.place]
    generalize i * (Binary64.one : Int) = units
    cases s <;> simp [Binary64.compareInt?, Binary64.place, coe_lt_top]
  | finite s u =>
    rw [Binary64.compareInt?, Number.place, Binary64.place, Option.some_inj, compare_lt_iff_lt,
      WithBot.coe_lt_coe, WithTop.coe_lt_coe]

/-- A real value compares with an integer as their places. -/
theorem compareInt?_eq_gt_iff (i : Int) {x : Binary64} (hx : x.isNaN = false) :
    Binary64.compareInt? i x = some .gt ↔ x.place < (Number.whole i).place := by
  cases x with
  | nan => cases hx
  | infinite s =>
    rw [Number.place]
    generalize i * (Binary64.one : Int) = units
    cases s <;> simp [Binary64.compareInt?, Binary64.place]
  | finite s u =>
    rw [Binary64.compareInt?, Number.place, Binary64.place, Option.some_inj, compare_gt_iff_gt,
      WithBot.coe_lt_coe, WithTop.coe_lt_coe]

/-- Numbers compare as their places. -/
theorem lt_iff_place {a b : Number} (ha : isNaN a = false) (hb : isNaN b = false) :
    a.lt b = true ↔ a.place < b.place := by
  cases a with
  | whole i =>
    cases b with
    | whole j =>
      have hcompare : (Number.whole i).lt (.whole j) = true ↔ i < j := by
        simp [Number.lt, Number.compare?, compare_lt_iff_lt]
      rw [hcompare, Number.place, Number.place, WithBot.coe_lt_coe, WithTop.coe_lt_coe]
      exact (Int.mul_lt_mul_right one_pos).symm
    | real y =>
      rw [Number.lt, beq_iff_eq]
      exact compareInt?_eq_lt_iff i hb
  | real x =>
    cases b with
    | whole j =>
      have hswap : (Number.real x).lt (.whole j) = true ↔ Binary64.compareInt? j x = some .gt := by
        simp only [Number.lt, Number.compare?, beq_iff_eq, Option.map_eq_some_iff]
        constructor
        · rintro ⟨o, ho, hswap⟩
          cases o <;> simp_all
        · exact fun h => ⟨.gt, h, rfl⟩
      rw [hswap]
      exact compareInt?_eq_gt_iff j ha
    | real y =>
      rw [Number.lt_real]
      exact real_lt_iff ha hb

/-- Numbers are equal when their places are. -/
theorem eq_iff_place {a b : Number} (ha : isNaN a = false) (hb : isNaN b = false) :
    a.eq b = true ↔ a.place = b.place := by
  have hmixed : ∀ (i : Int) (y : Binary64), y.isNaN = false →
      (Binary64.compareInt? i y = some .eq ↔ (Number.whole i).place = y.place) := by
    intro i y hy
    cases y with
    | nan => cases hy
    | infinite s =>
      rw [Number.place]
      generalize i * (Binary64.one : Int) = units
      cases s <;> simp [Binary64.compareInt?, Binary64.place]
    | finite s u =>
      rw [Binary64.compareInt?, Number.place, Binary64.place, Option.some_inj, compare_eq_iff_eq,
        WithBot.coe_inj, WithTop.coe_inj]
  cases a with
  | whole i =>
    cases b with
    | whole j =>
      have hcompare : (Number.whole i).eq (.whole j) = true ↔ i = j := by
        simp [Number.eq, Number.compare?]
      rw [hcompare, Number.place, Number.place, WithBot.coe_inj, WithTop.coe_inj]
      exact (Int.mul_eq_mul_right_iff one_pos.ne').symm
    | real y =>
      rw [Number.eq, beq_iff_eq]
      exact hmixed i y hb
  | real x =>
    cases b with
    | whole j =>
      have hswap : (Number.real x).eq (.whole j) = true ↔ Binary64.compareInt? j x = some .eq := by
        simp only [Number.eq, Number.compare?, beq_iff_eq, Option.map_eq_some_iff]
        constructor
        · rintro ⟨o, ho, hswap⟩
          cases o <;> simp_all
        · exact fun h => ⟨.eq, h, rfl⟩
      rw [hswap, hmixed j x ha]
      exact eq_comm
    | real y =>
      have h : (Number.real x).eq (.real y) = true ↔ x.eq y = true := by
        have hlt := real_lt_iff ha hb
        have heq := real_eq_iff ha hb
        have hne : x.lt y = true → ¬x.eq y = true := fun h h' => (hlt.1 h).ne (heq.1 h')
        simp only [Number.eq, Number.compare?]
        split
        · next hless => simp [hne hless]
        · split <;> (try split) <;> simp_all
      rw [h]
      exact real_eq_iff ha hb

/-- One number is at most another when its place is. -/
theorem le_iff_place {a b : Number} (ha : isNaN a = false) (hb : isNaN b = false) :
    a.le b = true ↔ a.place ≤ b.place := by
  have hle : a.le b = true ↔ a.lt b = true ∨ a.eq b = true := by rw [Number.le, Bool.or_eq_true, Number.lt, Number.eq]
  rw [hle, lt_iff_place ha hb, eq_iff_place ha hb, le_iff_lt_or_eq]

/-- Nothing compares with not-a-number. -/
theorem compare?_eq_none {a b : Number} (h : isNaN a = true ∨ isNaN b = true) : a.compare? b = none := by
  rcases h with h | h
  · obtain rfl : a = .real .nan := by
      rcases a with _ | _ | _ | _ <;> first | rfl | cases h
    rcases b with _ | _ | _ | _ <;> rfl
  · obtain rfl : b = .real .nan := by
      rcases b with _ | _ | _ | _ <;> first | rfl | cases h
    rcases a with _ | _ | _ | _ <;> rfl

/-- Numbers of which one is at most the other are not not-a-number. -/
theorem isNaN_of_le {a b : Number} (h : a.le b = true) : isNaN a = false ∧ isNaN b = false := by
  by_contra hnan
  rw [← Bool.not_eq_true, ← Bool.not_eq_true, ← not_or, not_not] at hnan
  rw [Number.le, compare?_eq_none hnan] at h
  cases h

/-- A number that is at most another one is at most all that this one is at most. -/
theorem le_trans_of_le {a b c : Number} (hab : a.le b = true) (hbc : b.le c = true) : a.le c = true := by
  obtain ⟨ha, hb⟩ := isNaN_of_le hab
  obtain ⟨-, hc⟩ := isNaN_of_le hbc
  rw [le_iff_place ha hb] at hab
  rw [le_iff_place hb hc] at hbc
  exact (le_iff_place ha hc).2 (hab.trans hbc)

/-- Negation turns the places of real values around. -/
theorem place_neg_lt_iff {x y : Binary64} (hx : x.isNaN = false) (hy : y.isNaN = false) :
    x.neg.place < y.neg.place ↔ y.place < x.place := by
  have hfinite : ∀ s u, (Binary64.finite s u).neg.place = ((-Binary64.signedUnits s u : Int) : WithTop Int) := by
    rintro (_ | _) u <;> simp [Binary64.neg, Binary64.place, Binary64.signedUnits]
  cases x with
  | nan => cases hx
  | infinite s =>
    cases y with
    | nan => cases hy
    | infinite t => cases s <;> cases t <;> simp [Binary64.neg, Binary64.place]
    | finite t v => cases s <;> simp [Binary64.neg, Binary64.place, coe_lt_top]
  | finite s u =>
    cases y with
    | nan => cases hy
    | infinite t => cases t <;> simp [Binary64.neg, Binary64.place, coe_lt_top]
    | finite t v =>
      rw [hfinite, hfinite, Binary64.place, Binary64.place, WithBot.coe_lt_coe, WithTop.coe_lt_coe,
        WithBot.coe_lt_coe, WithTop.coe_lt_coe, Int.neg_lt_neg_iff]

end DenseRank

end Hotspots
