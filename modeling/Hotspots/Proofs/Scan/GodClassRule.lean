import Hotspots.Proofs.Number.FiniteRange
import Hotspots.Proofs.Number.Rational
import Hotspots.Proofs.Ranking.DenseOrder
import Hotspots.Proofs.Run.Returns
import Hotspots.Scan.GodClass

/-!
# The arithmetic of the rule for god classes

The rule divides by its three thresholds. If the method count threshold is not zero, the one of foreign data is whole
and the one of cohesion is a real number other than zero, no division by zero comes up and no quotient is out of range,
as long as the measures themselves are not (`GodClass.HasDivisors.exists_evaluate`).
-/

namespace Hotspots

/-- A value with units is not zero. -/
theorem Binary64.isZero_of_pos {units : Nat} (negative : Bool) (h : 0 < units) :
    (finite negative units).isZero = false := by
  cases units with
  | zero => cases h
  | succ n => rfl

namespace Number

variable {i j : Int} {k : Nat}

/-- Integers of at most 1023 bits are converted. -/
theorem toReal_whole (hk : k ≤ 1023) (hi : i.natAbs < 2 ^ k) : (whole i).toReal = .ok (.ofInt i) := by
  simp only [toReal]
  rw [if_pos (Binary64.isFinite_ofInt hk hi)]

/-- The quotient of integers is the value nearest to it, if that is finite. -/
theorem quotient_whole_eq_ok_iff {x : Binary64} (hj : j ≠ 0) : (whole i).quotient (.whole j) = .ok x ↔
    (Binary64.ofIntQuotient i j).isFinite = true ∧ Binary64.ofIntQuotient i j = x := by
  simp only [quotient]
  rw [if_neg hj]
  split
  · next hfinite => exact ⟨fun h => ⟨hfinite, Except.ok.inj h⟩, fun h => congrArg Except.ok h.2⟩
  · next hinfinite => exact ⟨nofun, fun h => absurd h.1 hinfinite⟩

/-- Integers of at most 1023 bits have a quotient by any integer that is not zero. -/
theorem exists_quotient_whole (hk : k ≤ 1023) (hi : i.natAbs < 2 ^ k) (hj : j ≠ 0) :
    ∃ x, (whole i).quotient (.whole j) = .ok x :=
  ⟨_, (quotient_whole_eq_ok_iff hj).2 ⟨Binary64.isFinite_ofIntQuotient hk hi hj, rfl⟩⟩

/-- A number that is converted to a real number from zero on of some units, and compares as that. -/
structure HasUnits (n : Number) (v : Nat) : Prop where
  toReal : n.toReal = .ok (.finite false v)
  isNaN : DenseRank.isNaN n = false
  place : n.place = ((v : Int) : WithTop Int)

/-- A real number is below a number of some units if it is below the real number of these. -/
theorem HasUnits.lt_iff {n : Number} {v : Nat} (h : n.HasUnits v) {x : Binary64} (hx : x.isNaN = false) :
    (real x).lt n = true ↔ x.lt (.finite false v) = true := by
  rw [DenseRank.lt_iff_place (a := .real x) hx h.isNaN, h.place, DenseRank.real_lt_iff hx rfl]
  rfl

/-- A number above zero and up to one has units. -/
theorem exists_units_of_rational {n : Number} {x : ℚ} (hx : n.rational? = some x) (hpos : 0 < x) (hle : x ≤ 1) :
    ∃ v, 0 < v ∧ n.HasUnits v := by
  cases n with
  | whole i =>
    obtain rfl : (i : ℚ) = x := Option.some.inj hx
    obtain rfl : i = 1 := by
      have hlow : 0 < i := Int.cast_pos.1 hpos
      have hhigh : i ≤ 1 := by exact_mod_cast hle
      omega
    refine ⟨Binary64.one, Int.natCast_pos.1 DenseRank.one_pos, ?_, rfl, ?_⟩
    · rw [toReal_whole (k := 1) (by decide) (by decide), Binary64.ofInt_eq (by decide) (by decide), Int.toNat_one,
        Nat.one_mul]
    · rw [Number.place, Int.one_mul]
  | real y =>
    cases y with
    | nan => cases hx
    | infinite s => cases hx
    | finite s u =>
      obtain rfl : (Binary64.signedUnits s u : ℚ) / (Binary64.one : ℚ) = x := Option.some.inj hx
      rw [← zero_div (Binary64.one : ℚ), div_lt_div_iff_of_pos_right cast_one_pos, Int.cast_pos] at hpos
      cases s with
      | true => exact absurd hpos (by simp [Binary64.signedUnits])
      | false => exact ⟨u, Int.natCast_pos.1 hpos, rfl, rfl, rfl⟩

/-- A real number is divided by any number that is a real number other than zero. -/
theorem quotient_real (x : Binary64) {b : Number} {y : Binary64} (hb : b.toReal = .ok y) (hy : y.isZero = false) :
    (real x).quotient b = .ok (x.div y) := by
  have hdiv : (if y.isZero = true then .error .realByZero else .ok (x.div y) : Except Fault Binary64) = .ok (x.div y) :=
    if_neg (by simp [hy])
  cases b <;> exact bind_eq_ok.2 ⟨x, rfl, bind_eq_ok.2 ⟨y, hb, hdiv⟩⟩

end Number

namespace GodClass

/-- A rule that can divide by its thresholds. -/
structure HasDivisors (g : GodClass) : Prop where
  wmc : ∃ w, g.wmcThreshold = .whole w ∧ w ≠ 0
  atfd : ∃ a, g.atfdThreshold = .whole a
  tcc : ∃ x, g.tccThreshold.toReal = .ok x ∧ x.isZero = false

variable {g : GodClass} {m : ClassMetrics} {k : Nat}

/-- Foreign data is divided by a whole number above zero. -/
theorem HasDivisors.exists_atfdUnit (hg : g.HasDivisors) : ∃ a, g.atfdUnit = .whole a ∧ a ≠ 0 := by
  obtain ⟨a, ha⟩ := hg.atfd
  rw [atfdUnit, ha, Number.lt_whole]
  by_cases hsmall : a < 1
  · exact ⟨1, if_pos (decide_eq_true hsmall), by decide⟩
  · exact ⟨a, if_neg (by simpa using hsmall), by omega⟩

/-- The score before rounding adds up the two quotients, if they are there, and what is left up to the limit of
cohesion. -/
theorem rawScore_eq_ok_iff {limit x : Binary64} (hlimit : g.tccThreshold.toReal = .ok limit)
    (hnonzero : limit.isZero = false) : g.rawScore m = .ok x ↔ ∃ weight foreign,
      (Number.whole m.wmc).quotient g.wmcThreshold = .ok weight ∧
        (Number.whole m.atfd).quotient g.atfdUnit = .ok foreign ∧
          (weight.add foreign).add ((limit.sub m.tcc).div limit) = x := by
  have hlooseness := Number.quotient_real (limit.sub m.tcc) hlimit hnonzero
  rw [rawScore, hlimit]
  constructor
  · intro h
    obtain ⟨weight, hweight, h⟩ := bind_eq_ok.1 h
    obtain ⟨foreign, hforeign, h⟩ := bind_eq_ok.1 h
    obtain ⟨limit', hlimit', h⟩ := bind_eq_ok.1 h
    obtain rfl := Except.ok.inj hlimit'
    rw [hlooseness] at h
    exact ⟨weight, foreign, hweight, hforeign, Except.ok.inj h⟩
  · rintro ⟨weight, foreign, hweight, hforeign, rfl⟩
    exact bind_eq_ok.2 ⟨weight, hweight, bind_eq_ok.2 ⟨foreign, hforeign,
      bind_eq_ok.2 ⟨limit, rfl, bind_eq_ok.2 ⟨_, hlooseness, rfl⟩⟩⟩⟩

/-- A rule that can divide by its thresholds has a score for measures of at most 1023 bits. -/
theorem HasDivisors.exists_rawScore (hg : g.HasDivisors) (hk : k ≤ 1023) (hwmc : m.wmc.natAbs < 2 ^ k)
    (hatfd : m.atfd.natAbs < 2 ^ k) : ∃ x, g.rawScore m = .ok x := by
  obtain ⟨w, hw, hw0⟩ := hg.wmc
  obtain ⟨a, ha, ha0⟩ := hg.exists_atfdUnit
  obtain ⟨limit, hlimit, hnonzero⟩ := hg.tcc
  obtain ⟨weight, hweight⟩ := Number.exists_quotient_whole hk hwmc hw0
  obtain ⟨foreign, hforeign⟩ := Number.exists_quotient_whole hk hatfd ha0
  rw [← hw] at hweight
  rw [← ha] at hforeign
  exact ⟨_, (rawScore_eq_ok_iff hlimit hnonzero).2 ⟨weight, foreign, hweight, hforeign, rfl⟩⟩

/-- A rule that can divide by its thresholds comes to a finding or to none for measures of at most 1023 bits. -/
theorem HasDivisors.exists_evaluate (hg : g.HasDivisors) (hk : k ≤ 1023) (hwmc : m.wmc.natAbs < 2 ^ k)
    (hatfd : m.atfd.natAbs < 2 ^ k) : ∃ finding?, g.evaluate m = .ok finding? := by
  unfold evaluate
  split
  · obtain ⟨score, hscore⟩ := hg.exists_rawScore hk hwmc hatfd
    exact ⟨_, bind_eq_ok.2 ⟨score, hscore, rfl⟩⟩
  · exact ⟨none, rfl⟩

/-! ## Findings -/

/-- The finding for a class with a score that is not yet rounded. -/
def findingOf (m : ClassMetrics) (score : Binary64) : Finding :=
  { rule := rule
    score := score.toPlaces 4
    subject := m.name
    line := m.line
    metrics := [("wmc", .int m.wmc), ("atfd", .int m.atfd), ("tcc", .float (m.tcc.toPlaces 4)),
      ("methods", .int m.methodCount)] }

/-- A finding has its score rounded to four places. -/
theorem score_findingOf (m : ClassMetrics) (score : Binary64) : (findingOf m score).score = score.toPlaces 4 := rfl

/-- The rule has a finding for the classes that it flags, and for these only. -/
theorem evaluate_eq_ok {r : Option Finding} (h : g.evaluate m = .ok r) :
    g.flags m = false ∧ r = none ∨ g.flags m = true ∧ ∃ x, g.rawScore m = .ok x ∧ r = some (findingOf m x) := by
  rw [evaluate] at h
  split at h
  · next hflags =>
    obtain ⟨x, hx, hr⟩ := bind_eq_ok.1 h
    exact .inr ⟨hflags, x, hx, (Except.ok.inj hr).symm⟩
  · next hflags => exact .inl ⟨Bool.eq_false_iff.2 hflags, (Except.ok.inj h).symm⟩

/-- A rule fails on a source only if it has no tree, or with a fault of a measure; it is never interrupted. -/
theorem analyze_ne_interrupted (g : GodClass) (path source : String) : g.analyze path source ≠ .error .interrupted := by
  unfold analyze
  cases g.parse source with
  | error reason => cases reason <;> exact nofun
  | ok tree =>
    dsimp only
    cases g.findings tree <;> exact nofun

end GodClass

end Hotspots
