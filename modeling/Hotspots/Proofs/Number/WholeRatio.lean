import Hotspots.Proofs.Number.RoundedOrder

/-!
# Ratios of whole numbers

Whole numbers of at most 53 bits are multiplied without rounding if their product has no more bits (`mul_ofInt`), and
their quotient is their ratio, rounded once (`div_ofInt`). Rounded ratios are in the order of the ratios, and a ratio of
such numbers is not rounded to zero unless it is zero.
-/

namespace Hotspots.Binary64

variable {n d n' d' k : Nat}

/-! ## Rounded ratios -/

/-- A common factor of the units and the denominator does not change a rounded ratio. -/
theorem ofUnitRatio_mul_mul (negative : Bool) (hk : 0 < k) (n d : Nat) :
    ofUnitRatio negative (n * k) (d * k) = ofUnitRatio negative n d := by
  have hround : roundUnits (n * k) (d * k) = roundUnits n d := by
    rw [roundUnits, roundUnits, Nat.mul_div_mul_right _ _ hk, Nat.mul_right_comm, divToEven_mul_mul hk]
  rw [ofUnitRatio, ofUnitRatio, hround]

/-- Ratios in order have values in order. -/
theorem ofRatio_le (hd : 0 < d) (hd' : 0 < d') (h : n * d' ≤ n' * d) :
    (ofRatio false n d).le (ofRatio false n' d') = true := by
  refine ofUnitRatio_le (.inl rfl) (.inl rfl) hd hd' ?_
  calc n * one * d' = n * d' * one := Nat.mul_right_comm _ _ _
    _ ≤ n' * d * one := Nat.mul_le_mul_right _ h
    _ = n' * one * d := Nat.mul_right_comm _ _ _

/-- Finite values that are not negative are equal if their units are. -/
theorem finite_eq_iff {u v : Nat} : (finite false u).eq (.finite false v) = true ↔ u = v := by
  simp [eq, signedUnits]

/-- A ratio with a finite value has the units that it is rounded to. -/
theorem units_of_ofRatio {s t : Bool} {units : Nat} (h : ofRatio s n d = .finite t units) :
    units = roundUnits (n * one) d := by
  rw [ofRatio, ofUnitRatio] at h
  split at h
  · cases h
  · cases h
    rfl

/-- A ratio is rounded to no units only if it is nothing, as long as the denominator is at most the units of one. -/
theorem roundUnits_eq_zero_iff (hd : 0 < d) (hbits : d ≤ one) : roundUnits (n * one) d = 0 ↔ n = 0 := by
  constructor
  · intro hzero
    by_contra hne
    have hunit : roundUnits 1 1 ≤ roundUnits (n * one) d := by
      refine roundUnits_mono Nat.one_pos hd ?_
      calc 1 * d ≤ one := by rwa [Nat.one_mul]
        _ ≤ n * one := Nat.le_mul_of_pos_left _ (Nat.pos_of_ne_zero hne)
        _ = n * one * 1 := (Nat.mul_one _).symm
    have hself : roundUnits 1 1 = 1 := by decide
    omega
  · rintro rfl
    rw [Nat.zero_mul, roundUnits_zero]

/-! ## Products and quotients -/

/-- One has more units than a whole number of few bits has ones. -/
theorem le_one_of_lt (h : d < 2 ^ 53) : d ≤ one := by
  obtain ⟨e, he⟩ := exists_one_eq
  rw [he]
  exact h.le.trans (Nat.pow_le_pow_right (by decide) (by omega))

/-- Whole numbers of few bits are multiplied without rounding if their product has few bits. -/
theorem mul_ofInt (hn : n < 2 ^ 53) (hk : k < 2 ^ 53) (hproduct : n * k < 2 ^ 53) :
    (ofInt n).mul (ofInt k) = ofInt (n * k : Nat) := by
  have hone : 0 < one := Int.natCast_pos.1 DenseRank.one_pos
  have hunits : n * one * (k * one) = n * k * one * one := by ring
  rw [ofInt_eq (by omega) (by omega), ofInt_eq (by omega) (by omega), mul, Int.toNat_natCast, Int.toNat_natCast, hunits]
  calc ofUnitRatio (false != false) (n * k * one * one) one
      = ofUnitRatio false (n * k * one * one) (1 * one) := by rw [Nat.one_mul]; rfl
    _ = ofUnitRatio false (n * k * one) 1 := ofUnitRatio_mul_mul _ hone _ _
    _ = ofInt (n * k : Nat) := by rw [ofInt, ofRatio, decide_eq_false (by omega), Int.natAbs_natCast]

/-- The quotient of whole numbers of few bits is their ratio, rounded once. -/
theorem div_ofInt (hn : n < 2 ^ 53) (hd : 0 < d) (hbits : d < 2 ^ 53) :
    (ofInt n).div (ofInt d) = ofRatio false n d := by
  have hone : 0 < one := Int.natCast_pos.1 DenseRank.one_pos
  have hne : d * one ≠ 0 := (Nat.mul_pos hd hone).ne'
  rw [ofInt_eq (by omega) (by omega), ofInt_eq (by omega) (by omega), div, Int.toNat_natCast, Int.toNat_natCast,
    if_neg hne]
  exact ofUnitRatio_mul_mul _ hone _ _

end Hotspots.Binary64
