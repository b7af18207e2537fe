import Hotspots.Proofs.Number.NearOne

/-!
# Ratios in range

A ratio of at most 1023 bits has a finite value nearest to it, so that neither integers of so many bits nor their
quotients are out of range.
-/

namespace Hotspots.Binary64

variable {num den k : Nat}

/-- A ratio of at most 1023 bits is rounded to a finite value. -/
theorem isFinite_ofRatio (negative : Bool) (hk : k ≤ 1023) (hden : 0 < den) (h : num < 2 ^ k * den) :
    (ofRatio negative num den).isFinite = true := by
  have hunits : roundUnits (num * one) den < overflowUnits := by
    unfold one overflowUnits
    generalize hu : unitExponent = u
    obtain ⟨e, rfl⟩ : ∃ e, u = e + 52 := ⟨1022, by rw [← hu]; rfl⟩
    have hshifted : num * 2 ^ (e + 52) < 2 ^ (k + e + 52) * den := by
      calc num * 2 ^ (e + 52)
          < 2 ^ k * den * 2 ^ (e + 52) := Nat.mul_lt_mul_of_pos_right h (Nat.two_pow_pos _)
        _ = 2 ^ (k + e + 52) * den := by ring
    exact Nat.lt_of_lt_of_le (roundUnits_lt hden hshifted) (Nat.pow_le_pow_right (by decide) (by omega))
  rw [ofRatio, ofUnitRatio, if_neg (Nat.not_le.2 hunits)]
  rfl

/-- An integer of at most 1023 bits has a finite value nearest to it. -/
theorem isFinite_ofInt {i : Int} (hk : k ≤ 1023) (h : i.natAbs < 2 ^ k) : (ofInt i).isFinite = true :=
  isFinite_ofRatio _ hk Nat.one_pos (by rwa [Nat.mul_one])

/-- The quotient of an integer of at most 1023 bits by one that is not zero is finite. -/
theorem isFinite_ofIntQuotient {i j : Int} (hk : k ≤ 1023) (hi : i.natAbs < 2 ^ k) (hj : j ≠ 0) :
    (ofIntQuotient i j).isFinite = true := by
  have hpos : 0 < j.natAbs := Int.natAbs_pos.2 hj
  exact isFinite_ofRatio _ hk hpos (Nat.lt_of_lt_of_le hi (Nat.le_mul_of_pos_right _ hpos))

end Hotspots.Binary64
