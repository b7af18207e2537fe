import Hotspots.Number.Real
import Hotspots.Proofs.Number.ExactWhole
import Mathlib.Algebra.Order.Field.Rat
import Mathlib.Data.Rat.Cast.Order
import Mathlib.Order.Compare

/-!
# Numbers as rational numbers

A number that is neither an infinity nor not-a-number is a rational number, and such numbers compare as these
(`compare?_of_rational`).
-/

namespace Hotspots.Number

/-- The rational number that a number is, if it is finite. -/
def rational? : Number → Option ℚ
  | .whole i => some i
  | .real (.finite negative units) => some ((Binary64.signedUnits negative units : ℚ) / (Binary64.one : ℚ))
  | .real _ => none

/-- There are units in one. -/
theorem cast_one_pos : (0 : ℚ) < (Binary64.one : ℚ) := Nat.cast_pos.2 (Nat.two_pow_pos _)

/-- Integers that are ordered as rational numbers compare as these. -/
theorem compare_eq_compare {i j : Int} {x y : ℚ} (h : i < j ↔ x < y) (h' : j < i ↔ y < x) :
    compare i j = compare x y := by
  rcases lt_trichotomy i j with hlt | rfl | hgt
  · rw [compare_lt_iff_lt.2 hlt, compare_lt_iff_lt.2 (h.1 hlt)]
  · have heq : x = y :=
      le_antisymm (not_lt.1 fun hlt => lt_irrefl _ (h'.2 hlt)) (not_lt.1 fun hlt => lt_irrefl _ (h.2 hlt))
    rw [compare_eq_iff_eq.2 rfl, compare_eq_iff_eq.2 heq]
  · rw [compare_gt_iff_gt.2 hgt, compare_gt_iff_gt.2 (h'.1 hgt)]

/-- Units compare as the numbers that they make. -/
theorem compare_units (i j : Int) : compare i j = compare ((i : ℚ) / Binary64.one) ((j : ℚ) / Binary64.one) := by
  apply compare_eq_compare
  · rw [div_lt_div_iff_of_pos_right cast_one_pos, Int.cast_lt]
  · rw [div_lt_div_iff_of_pos_right cast_one_pos, Int.cast_lt]

/-- An integer is made of its units. -/
theorem cast_mul_one_div (i : Int) : ((i * Binary64.one : Int) : ℚ) / Binary64.one = i := by
  rw [Int.cast_mul, Int.cast_natCast, mul_div_cancel_right₀ _ cast_one_pos.ne']

/-- Real values compare as the integers of their units. -/
theorem compare?_finite (s t : Bool) (u v : Nat) : compare? (.real (.finite s u)) (.real (.finite t v)) =
    some (compare (Binary64.signedUnits s u) (Binary64.signedUnits t v)) := by
  simp only [compare?, Binary64.lt, Binary64.eq, decide_eq_true_eq]
  split
  · next hlt => rw [compare_lt_iff_lt.2 hlt]
  · next hle =>
    split
    · next heq => rw [compare_eq_iff_eq.2 heq]
    · next hne =>
      have hgt : Binary64.signedUnits t v < Binary64.signedUnits s u := by omega
      rw [if_pos hgt, compare_gt_iff_gt.2 hgt]

variable {a b : Number} {x y : ℚ}

/-- Finite numbers compare as rational numbers. -/
theorem compare?_of_rational (ha : a.rational? = some x) (hb : b.rational? = some y) :
    compare? a b = some (compare x y) := by
  cases a with
  | whole i =>
    cases ha
    cases b with
    | whole j =>
      cases hb
      exact congrArg some (compare_eq_compare Int.cast_lt.symm Int.cast_lt.symm)
    | real v =>
      cases v with
      | finite t v =>
        cases hb
        rw [compare?, Binary64.compareInt?, compare_units, cast_mul_one_div]
      | nan => cases hb
      | infinite t => cases hb
  | real u =>
    cases u with
    | finite s u =>
      cases ha
      cases b with
      | whole j =>
        cases hb
        rw [compare?, Binary64.compareInt?, compare_units, cast_mul_one_div, Option.map_some,
          ← Std.OrientedCmp.eq_swap]
      | real v =>
        cases v with
        | finite t v =>
          cases hb
          rw [compare?_finite, compare_units]
        | nan => cases hb
        | infinite t => cases hb
    | nan => cases ha
    | infinite s => cases ha

/-- One finite number is below another if it is as rational numbers. -/
theorem lt_iff_of_rational (ha : a.rational? = some x) (hb : b.rational? = some y) : a.lt b = true ↔ x < y := by
  rw [lt, compare?_of_rational ha hb, beq_iff_eq, Option.some_inj, compare_lt_iff_lt]

/-- One finite number is at most another if it is as rational numbers. -/
theorem le_iff_of_rational (ha : a.rational? = some x) (hb : b.rational? = some y) : a.le b = true ↔ x ≤ y := by
  rw [le, compare?_of_rational ha hb, Bool.or_eq_true, beq_iff_eq, beq_iff_eq, Option.some_inj, Option.some_inj,
    compare_lt_iff_lt, compare_eq_iff_eq, le_iff_lt_or_eq]

/-- Not-a-number is above nothing. -/
theorem lt_nan (a : Number) : a.lt (.real .nan) = false := by
  cases a with
  | whole i => rfl
  | real v => cases v <;> rfl

/-- Nothing is below negative infinity. -/
theorem lt_infinite_true (a : Number) : a.lt (.real (.infinite true)) = false := by
  cases a with
  | whole i => rfl
  | real v =>
    cases v with
    | nan => rfl
    | infinite s => cases s <;> rfl
    | finite s u => rfl

/-- No finite number is above infinity. -/
theorem infinite_false_le (hb : b.rational? = some y) : Number.le (.real (.infinite false)) b = false := by
  cases b with
  | whole i => rfl
  | real v =>
    cases v with
    | finite s u => rfl
    | nan => cases hb
    | infinite s => cases hb

/-- A number between finite numbers is finite. -/
theorem exists_rational_of_between {n : Number} (ha : a.rational? = some x) (hb : b.rational? = some y)
    (hlow : a.lt n = true) (hhigh : n.le b = true) : ∃ z, n.rational? = some z ∧ x < z ∧ z ≤ y := by
  have hfinite : ∃ z, n.rational? = some z := by
    cases n with
    | whole i => exact ⟨i, rfl⟩
    | real c =>
      cases c with
      | finite s u => exact ⟨_, rfl⟩
      | nan => exact absurd hlow (by simp [lt_nan])
      | infinite s =>
        cases s with
        | true => exact absurd hlow (by simp [lt_infinite_true])
        | false => exact absurd hhigh (by simp [infinite_false_le hb])
  obtain ⟨z, hz⟩ := hfinite
  exact ⟨z, hz, (lt_iff_of_rational ha hz).1 hlow, (le_iff_of_rational hz hb).1 hhigh⟩

/-- The value nearest to an integer of at most 53 bits is this integer. -/
theorem rational?_ofInt {i : Int} (hnonneg : 0 ≤ i) (h : i < 2 ^ 53) :
    rational? (.real (Binary64.ofInt i)) = some (i : ℚ) := by
  have hunits : Binary64.signedUnits false (i.toNat * Binary64.one) = i * Binary64.one := by
    rw [Binary64.signedUnits, if_neg Bool.false_ne_true, Int.natCast_mul, Int.toNat_of_nonneg hnonneg]
  rw [Binary64.ofInt_eq hnonneg h, rational?, hunits, cast_mul_one_div]

/-- Zero is zero. -/
theorem rational?_zero : rational? (.real .zero) = some 0 := by
  rw [Binary64.zero, rational?, Binary64.signedUnits, if_neg Bool.false_ne_true, Nat.cast_zero, Int.cast_zero, zero_div]

end Hotspots.Number
