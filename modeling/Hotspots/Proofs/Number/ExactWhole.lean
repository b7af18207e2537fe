import Hotspots.Number.Binary64
import Mathlib.Algebra.Order.Ring.Int

/-!
# Integers that are held exactly

A quotient without remainder is not rounded, and an integer of at most 53 bits needs no more significant bits
than the format has: the value nearest to it is itself.
-/

namespace Hotspots

/-- A quotient without remainder is itself. -/
theorem divToEven_mul {d : Nat} (hd : 0 < d) (q : Nat) : divToEven (q * d) d = q := by
  unfold divToEven
  dsimp only
  rw [Nat.mul_mod_left, Nat.mul_div_cancel _ hd, if_pos (by omega)]

namespace Binary64

/-- Units that the spare bits divide are not rounded. -/
theorem roundUnits_of_dvd {units : Nat} (h : 2 ^ spareBits units ∣ units) : roundUnits units 1 = units := by
  have hexact : divToEven units (2 ^ spareBits units) = units / 2 ^ spareBits units := by
    have hquotient := divToEven_mul (Nat.two_pow_pos (spareBits units)) (units / 2 ^ spareBits units)
    rwa [Nat.div_mul_cancel h] at hquotient
  rw [roundUnits, Nat.div_one, Nat.one_mul, Nat.pow_eq, hexact, Nat.div_mul_cancel h]

/-- A number of few bits is still below a power of two after both were multiplied by one. -/
theorem mul_two_pow_lt {n k bits : Nat} (h : n < 2 ^ k) (hk : k ≤ bits) (e : Nat) :
    n * 2 ^ e < 2 ^ (bits + e) := by
  rw [Nat.pow_add]
  exact Nat.mul_lt_mul_of_pos_right (Nat.lt_of_lt_of_le h (Nat.pow_le_pow_right (by omega) hk))
    (Nat.two_pow_pos e)

/-- A number of at most 53 bits has its lowest bit among the significant ones. -/
theorem spareBits_mul_two_pow_le {n : Nat} (h : n < 2 ^ 53) (e : Nat) : spareBits (n * 2 ^ e) ≤ e := by
  unfold spareBits
  by_cases hzero : n * 2 ^ e = 0
  · rw [hzero]
    simp
  · have hlog := (Nat.log2_lt hzero).2 (mul_two_pow_lt h (Nat.le_refl 53) e)
    omega

/-- The value nearest to an integer of at most 53 bits is this integer. -/
theorem ofInt_eq {i : Int} (hnonneg : 0 ≤ i) (h : i < 2 ^ 53) : ofInt i = .finite false (i.toNat * one) := by
  have hnat : i.natAbs = i.toNat := by omega
  have hbound : i.toNat < 2 ^ 53 := by omega
  have hround : roundUnits (i.toNat * one) 1 = i.toNat * one :=
    roundUnits_of_dvd (Nat.dvd_trans (Nat.pow_dvd_pow 2 (spareBits_mul_two_pow_le hbound unitExponent))
      (Nat.dvd_mul_left _ _))
  have hsmall : i.toNat * one < overflowUnits := mul_two_pow_lt hbound (by omega) unitExponent
  rw [ofInt, ofRatio, ofUnitRatio, hnat, hround, decide_eq_false (by omega), if_neg (Nat.not_le.2 hsmall)]

end Binary64

end Hotspots
