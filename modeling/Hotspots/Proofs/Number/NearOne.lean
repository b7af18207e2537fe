import Hotspots.Proofs.Number.ExactWhole
import Mathlib.Tactic.Ring

/-!
# Ratios that are rounded to one

A ratio of at most 1 is at most 1 after rounding, and it is rounded to 1 exactly when its distance to 1 is at most
half a unit in the last place below 1, that is at most 2⁻⁵⁴ (`ofRatio_eq_one_iff`).
-/

namespace Hotspots

/-- A common factor does not change a rounded quotient. -/
theorem divToEven_mul_mul {k : Nat} (hk : 0 < k) (n d : Nat) : divToEven (n * k) (d * k) = divToEven n d := by
  have hbelow : 2 * (n % d * k) < d * k ↔ 2 * (n % d) < d := by
    rw [← Nat.mul_assoc, Nat.mul_lt_mul_right hk]
  have habove : d * k < 2 * (n % d * k) ↔ d < 2 * (n % d) := by
    rw [← Nat.mul_assoc, Nat.mul_lt_mul_right hk]
  unfold divToEven
  dsimp only
  rw [Nat.mul_div_mul_right _ _ hk, Nat.mul_mod_mul_right]
  simp only [hbelow, habove]

/-- A quotient below an even number is rounded up to it from half a step below on, and never beyond it. -/
theorem divToEven_eq_iff_of_lt {n d k : Nat} (hk : k % 2 = 0) (h : n < k * d) :
    divToEven n d ≤ k ∧ (divToEven n d = k ↔ 2 * (k * d) ≤ 2 * n + d) := by
  have hd : 0 < d := Nat.pos_of_ne_zero fun hzero => by simp [hzero] at h
  have hquotient : n / d < k := (Nat.div_lt_iff_lt_mul hd).2 h
  have hsplit : n = n / d * d + n % d := (Nat.div_add_mod' n d).symm
  have hrest : n % d < d := Nat.mod_lt n hd
  refine ⟨Nat.le_trans (divToEven_le n d) hquotient, ?_⟩
  unfold divToEven
  dsimp only
  generalize n / d = q at hquotient hsplit ⊢
  generalize n % d = r at hsplit hrest ⊢
  by_cases hnext : q + 1 = k
  · subst hnext
    have hodd : q % 2 = 1 := by omega
    rw [hsplit, Nat.add_mul, hodd]
    split
    · omega
    · split
      · omega
      · omega
  · have hfar : (q + 2) * d ≤ k * d := Nat.mul_le_mul_right d (by omega)
    rw [Nat.add_mul] at hfar
    have hmod : q % 2 < 2 := Nat.mod_lt q (by decide)
    split
    · omega
    · split
      · omega
      · omega

namespace Binary64

/-! ## Rounding in a known range -/

section Range

variable {num den e : Nat}

/-- A quotient with 53 bits above a step is rounded to multiples of that step. -/
theorem roundUnits_of_range (hden : 0 < den) (hlow : 2 ^ (e + 52) * den ≤ num) (hhigh : num < 2 ^ (e + 53) * den) :
    roundUnits num den = divToEven num (den * 2 ^ e) * 2 ^ e := by
  have hquotient : 2 ^ (e + 52) ≤ num / den := (Nat.le_div_iff_mul_le hden).2 hlow
  have hne : num / den ≠ 0 := by
    have := Nat.two_pow_pos (e + 52)
    omega
  have hspare : spareBits (num / den) = e := by
    have hlog := (Nat.le_log2 hne).2 hquotient
    have hlog' := (Nat.log2_lt hne).2 ((Nat.div_lt_iff_lt_mul hden).2 hhigh)
    rw [spareBits]
    omega
  rw [roundUnits, hspare]
  rfl

/-- Rounding adds at most one step. -/
theorem roundUnits_le (num den : Nat) : roundUnits num den ≤ num / den + 2 ^ spareBits (num / den) := by
  have hstep := divToEven_le num (den * 2 ^ spareBits (num / den))
  rw [← Nat.div_div_eq_div_mul] at hstep
  calc roundUnits num den
      ≤ (num / den / 2 ^ spareBits (num / den) + 1) * 2 ^ spareBits (num / den) := Nat.mul_le_mul_right _ hstep
    _ = num / den / 2 ^ spareBits (num / den) * 2 ^ spareBits (num / den) + 2 ^ spareBits (num / den) :=
        Nat.succ_mul _ _
    _ ≤ num / den + 2 ^ spareBits (num / den) := Nat.add_le_add_right (Nat.div_mul_le_self _ _) _

/-- A quotient below a power of two is rounded to less than the next one. -/
theorem roundUnits_lt (hden : 0 < den) (h : num < 2 ^ (e + 52) * den) : roundUnits num den < 2 ^ (e + 53) := by
  have hquotient : num / den < 2 ^ (e + 52) := (Nat.div_lt_iff_lt_mul hden).2 h
  have hspare : spareBits (num / den) ≤ e := by
    by_cases hzero : num / den = 0
    · rw [hzero]
      exact Nat.zero_le e
    · have hlog := (Nat.log2_lt hzero).2 hquotient
      rw [spareBits]
      omega
  have hstep : 2 ^ spareBits (num / den) ≤ 2 ^ (e + 52) := Nat.pow_le_pow_right (by decide) (by omega)
  have hnext : 2 ^ (e + 53) = 2 ^ (e + 52) + 2 ^ (e + 52) := by rw [← Nat.two_mul, ← Nat.pow_succ']
  have hround := roundUnits_le num den
  omega

end Range

/-! ## Ratios up to one -/

section Ratio

variable {n d e : Nat}

/-- The units of a ratio below one are those of one exactly if it is near enough to one, and never more. -/
theorem roundUnits_of_lt (h : n < d) :
    roundUnits (n * 2 ^ (e + 53)) d ≤ 2 ^ (e + 53) ∧
      (roundUnits (n * 2 ^ (e + 53)) d = 2 ^ (e + 53) ↔ 2 ^ 54 * (d - n) ≤ d) := by
  have hd : 0 < d := by omega
  have hhigh : n * 2 ^ (e + 53) < 2 ^ (e + 53) * d := by
    rw [Nat.mul_comm]
    exact Nat.mul_lt_mul_of_pos_left h (Nat.two_pow_pos _)
  -- Ratios from one half on have the step of the numbers just below one; smaller ones cannot reach one at all.
  by_cases hhalf : d ≤ 2 * n
  · have hlow : 2 ^ (e + 52) * d ≤ n * 2 ^ (e + 53) :=
      calc 2 ^ (e + 52) * d ≤ 2 ^ (e + 52) * (2 * n) := Nat.mul_le_mul_left _ hhalf
        _ = n * 2 ^ (e + 53) := by ring
    have hsplit : divToEven (n * 2 ^ (e + 53)) (d * 2 ^ e) = divToEven (n * 2 ^ 53) d := by
      rw [show n * 2 ^ (e + 53) = n * 2 ^ 53 * 2 ^ e by ring, divToEven_mul_mul (Nat.two_pow_pos e)]
    have hbelow : n * 2 ^ 53 < 2 ^ 53 * d := by
      rw [Nat.mul_comm]
      exact Nat.mul_lt_mul_of_pos_left h (Nat.two_pow_pos _)
    obtain ⟨hle, heq⟩ := divToEven_eq_iff_of_lt (by decide) hbelow
    have hpow : 2 ^ (e + 53) = 2 ^ 53 * 2 ^ e := by ring
    rw [roundUnits_of_range hd hlow hhigh, hsplit, hpow]
    refine ⟨Nat.mul_le_mul_right _ hle, ?_⟩
    rw [Nat.mul_left_inj (Nat.two_pow_pos e).ne', heq]
    omega
  · have hsmall : roundUnits (n * 2 ^ (e + 53)) d < 2 ^ (e + 53) := by
      refine roundUnits_lt hd ?_
      calc n * 2 ^ (e + 53) = 2 ^ (e + 52) * (2 * n) := by ring
        _ < 2 ^ (e + 52) * d := Nat.mul_lt_mul_of_pos_left (by omega) (Nat.two_pow_pos _)
    exact ⟨hsmall.le, iff_of_false hsmall.ne (by omega)⟩

/-- A whole has the units of one. -/
theorem roundUnits_self (hd : 0 < d) : roundUnits (d * 2 ^ (e + 53)) d = 2 ^ (e + 53) := by
  have hsplit : d * 2 ^ (e + 53) = 2 ^ 52 * (d * 2 ^ (e + 1)) := by ring
  have hlow : 2 ^ (e + 1 + 52) * d ≤ d * 2 ^ (e + 53) := by
    rw [show e + 1 + 52 = e + 53 by omega, Nat.mul_comm]
  have hhigh : d * 2 ^ (e + 53) < 2 ^ (e + 1 + 53) * d := by
    rw [Nat.mul_comm]
    exact Nat.mul_lt_mul_of_pos_right (Nat.pow_lt_pow_right (by decide) (by omega)) hd
  rw [roundUnits_of_range hd hlow hhigh, hsplit, divToEven_mul (Nat.mul_pos hd (Nat.two_pow_pos _))]
  ring

/-- The units of one are a power of two with at least 53 bits. -/
theorem exists_one_eq : ∃ e, one = 2 ^ (e + 53) := by
  unfold one
  generalize hu : unitExponent = u
  obtain ⟨e, rfl⟩ : ∃ e, u = e + 53 := ⟨1021, by rw [← hu]; rfl⟩
  exact ⟨e, rfl⟩

/-- The value of 1. -/
theorem ofInt_one : ofInt 1 = .finite false one := by
  rw [ofInt_eq (by decide) (by decide), Int.toNat_one, Nat.one_mul]

/-- A ratio of at most one is not above one after rounding, and is one exactly if it is near enough to one. -/
theorem ofRatio_eq_one_iff (hd : 0 < d) (h : n ≤ d) :
    (∃ units ≤ one, ofRatio false n d = .finite false units) ∧
      (ofRatio false n d = ofInt 1 ↔ 2 ^ 54 * (d - n) ≤ d) := by
  obtain ⟨hle, heq⟩ : roundUnits (n * one) d ≤ one ∧ (roundUnits (n * one) d = one ↔ 2 ^ 54 * (d - n) ≤ d) := by
    obtain ⟨e, he⟩ := exists_one_eq
    rw [he]
    rcases Nat.eq_or_lt_of_le h with rfl | hlt
    · rw [roundUnits_self hd]
      simp
    · exact roundUnits_of_lt hlt
  have hfinite : ofRatio false n d = .finite false (roundUnits (n * one) d) := by
    have hsmall : one < overflowUnits := by
      unfold one overflowUnits
      generalize unitExponent = u
      exact Nat.pow_lt_pow_right (by decide) (by omega)
    rw [ofRatio, ofUnitRatio, if_neg (Nat.not_le.2 (Nat.lt_of_le_of_lt hle hsmall))]
  refine ⟨⟨_, hle, hfinite⟩, ?_⟩
  rw [hfinite, ofInt_one, ← heq]
  simp

/-- A ratio of at most one is below one after rounding exactly if it is not one. -/
theorem ofRatio_lt_one_iff (hd : 0 < d) (h : n ≤ d) :
    (ofRatio false n d).lt (ofInt 1) = true ↔ ofRatio false n d ≠ ofInt 1 := by
  obtain ⟨⟨units, hle, hfinite⟩, -⟩ := ofRatio_eq_one_iff hd h
  rw [hfinite, ofInt_one]
  simp only [lt, signedUnits, Bool.false_eq_true, if_false, decide_eq_true_eq, Int.ofNat_lt, ne_eq,
    finite.injEq, true_and]
  omega

end Ratio

end Binary64

end Hotspots
