import Hotspots.Proofs.Config.Domain
import Hotspots.Proofs.Number.RoundedOrder
import Hotspots.Proofs.Scan.GodClassRule
import Hotspots.Proofs.Triage.AcceptedSettings

/-!
# Greater measures, greater score

With the thresholds of accepted settings the rule adds up three terms: two quotients that are at least one for the
classes that it flags, and a third term from zero on. Each of them grows with its measure, before and after rounding
(`GodClass.excess_le`), so that a flagged class has a score of at least two, and a class that is out further on every
measure is flagged as well and has no smaller score (`Triage.two_le_score_and_score_le`).
-/

namespace Hotspots

namespace GodClass

/-- A rule that flags classes by a whole weighted method count from one on, by whole foreign data from zero on, and by a
cohesion of some units above zero. -/
structure HasThresholds (g : GodClass) (w a : Int) (v : Nat) : Prop where
  wmc : g.wmcThreshold = .whole w
  one_le : 1 ≤ w
  atfd : g.atfdThreshold = .whole a
  zero_le : 0 ≤ a
  tcc : g.tccThreshold.HasUnits v
  pos : 0 < v

/-- How far a class is out, added up over the three measures. -/
def excess (w a : Int) (v : Nat) (m : ClassMetrics) : Binary64 :=
  ((Binary64.ofIntQuotient m.wmc w).add (.ofIntQuotient m.atfd (max a 1))).add
    (((Binary64.finite false v).sub m.tcc).div (.finite false v))

variable {g : GodClass} {m m' : ClassMetrics} {w a : Int} {v : Nat}

namespace HasThresholds

/-- A class is flagged if it is out on the three thresholds. -/
theorem flags_iff (h : g.HasThresholds w a v) (htcc : m.tcc.isNaN = false) :
    g.flags m = true ↔ w ≤ m.wmc ∧ a < m.atfd ∧ m.tcc.lt (.finite false v) = true := by
  have hwmc : (Number.whole w).le (.whole m.wmc) = true ↔ w ≤ m.wmc :=
    (Number.le_iff_of_rational rfl rfl).trans Int.cast_le
  rw [flags, Bool.and_eq_true, Bool.and_eq_true, h.wmc, h.atfd, hwmc, Number.lt_whole, decide_eq_true_eq,
    h.tcc.lt_iff htcc, and_assoc]

/-- Foreign data is divided by its threshold, or by one. -/
theorem atfdUnit_eq (h : g.HasThresholds w a v) : g.atfdUnit = .whole (max a 1) := by
  rw [atfdUnit, h.atfd, Number.lt_whole]
  split
  · next hsmall => rw [Int.max_eq_right (of_decide_eq_true hsmall).le]
  · next hlarge => rw [Int.max_eq_left (by simpa using hlarge)]

/-- The score before rounding, if there is one, is the excess. -/
theorem rawScore_eq (h : g.HasThresholds w a v) {x : Binary64} (hx : g.rawScore m = .ok x) : x = excess w a v m := by
  obtain ⟨weight, foreign, hweight, hforeign, rfl⟩ :=
    (rawScore_eq_ok_iff h.tcc.toReal (Binary64.isZero_of_pos false h.pos)).1 hx
  rw [h.wmc] at hweight
  rw [h.atfdUnit_eq] at hforeign
  have hone := h.one_le
  rw [excess, ((Number.quotient_whole_eq_ok_iff (by omega)).1 hweight).2,
    ((Number.quotient_whole_eq_ok_iff (by omega)).1 hforeign).2]

end HasThresholds

/-! ## The three terms -/

section Terms

variable (hw : 1 ≤ w) (ha : 0 ≤ a) (hv : 0 < v) (hwmc : w ≤ m.wmc) (hatfd : a < m.atfd)
include hw ha hv hwmc hatfd

/-- The excess of a class that is out on every threshold is at least two. -/
theorem two_le_excess (htcc : Binary64.zero.le m.tcc = true) (hlimit : m.tcc.lt (.finite false v) = true) :
    (Binary64.ofInt 2).le (excess w a v m) = true := by
  have hone := Binary64.zero_le_ofInt Int.one_nonneg
  have hweight : (Binary64.ofInt 1).le (.ofIntQuotient m.wmc w) = true := Binary64.one_le_ofIntQuotient (by omega) hwmc
  have hforeign : (Binary64.ofInt 1).le (.ofIntQuotient m.atfd (max a 1)) = true :=
    Binary64.one_le_ofIntQuotient (by omega) (by omega)
  have hself := Binary64.le_self (Binary64.isNaN_of_le htcc).2
  have hlooseness := Binary64.zero_le_div (Binary64.sub_le_sub_left (.inl rfl) htcc hself hlimit).1 hv
  have htwo : ((Binary64.ofInt 1).add (.ofInt 1)).add .zero = .ofInt 2 := by decide +kernel
  rw [← htwo, excess]
  have hsum := Binary64.add_le_add hone hone hweight hforeign
  exact Binary64.add_le_add (Binary64.zero_le_add hone hone) Binary64.zero_le_zero hsum hlooseness

/-- A class that is out further on every measure has no smaller excess. -/
theorem excess_le (htcc : Binary64.zero.le m'.tcc = true) (hlimit : m.tcc.lt (.finite false v) = true)
    (hwmc' : m.wmc ≤ m'.wmc) (hatfd' : m.atfd ≤ m'.atfd) (htcc' : m'.tcc.le m.tcc = true) :
    (excess w a v m).le (excess w a v m') = true := by
  have hweight : (Binary64.ofIntQuotient m.wmc w).le (.ofIntQuotient m'.wmc w) = true :=
    Binary64.ofIntQuotient_le (by omega) hwmc' (by omega)
  have hforeign : (Binary64.ofIntQuotient m.atfd (max a 1)).le (.ofIntQuotient m'.atfd (max a 1)) = true :=
    Binary64.ofIntQuotient_le (by omega) hatfd' (by omega)
  obtain ⟨hpos, hsub⟩ := Binary64.sub_le_sub_left (.inl rfl) htcc htcc' hlimit
  have hone := Binary64.zero_le_ofInt Int.one_nonneg
  have hweight0 := Binary64.le_trans hone (Binary64.one_le_ofIntQuotient (by omega) hwmc)
  have hforeign0 := Binary64.le_trans hone
    (Binary64.one_le_ofIntQuotient (k := max a 1) (i := m.atfd) (by omega) (by omega))
  exact Binary64.add_le_add (Binary64.zero_le_add hweight0 hforeign0) (Binary64.zero_le_div hpos hv)
    (Binary64.add_le_add hweight0 hforeign0 hweight hforeign) (Binary64.div_le_div_right hpos hsub hv)

end Terms

end GodClass

/-- Settings within their bounds give the rule its thresholds. -/
theorem Settings.InBounds.exists_thresholds {s : Settings} (h : s.InBounds) :
    ∃ w a v, (Triage.godClassOf s).HasThresholds w a v := by
  obtain ⟨w, hw, hone⟩ := h.godClassWmcThreshold
  obtain ⟨a, ha, hzero⟩ := h.godClassAtfdThreshold
  obtain ⟨v, hv, hunits⟩ := h.godClassTccThreshold.exists_units
  exact ⟨w, a, v, {
    wmc := by rw [Triage.godClassOf, hw]; rfl
    one_le := hone
    atfd := by rw [Triage.godClassOf, ha]; rfl
    zero_le := hzero
    tcc := hunits
    pos := hv }⟩

namespace Triage

/-- With accepted settings of the right shapes, a finding has a score of at least two, and a class that is out further
on every measure has a finding as well, if the rule comes to an end on it, with a score that is not smaller. -/
theorem two_le_score_and_score_le {s : Settings} (hshape : ∀ g : Field, g.shape.admits (s g) = true)
    (hvalid : s.validate = .ok ()) {m : ClassMetrics} (htcc : Binary64.zero.le m.tcc = true) {f : Finding}
    (hf : (godClassOf s).evaluate m = .ok (some f)) :
    (Binary64.ofInt 2).le f.score = true ∧
    ∀ m' : ClassMetrics, m.wmc ≤ m'.wmc → m.atfd ≤ m'.atfd → m'.tcc.le m.tcc = true → Binary64.zero.le m'.tcc = true →
      ∀ r, (godClassOf s).evaluate m' = .ok r → ∃ f', r = some f' ∧ f.score.le f'.score = true := by
  obtain ⟨w, a, v, hg⟩ := (Settings.inBounds_of_validate hvalid hshape).exists_thresholds
  obtain ⟨-, hnone⟩ | ⟨hflags, x, hx, hfinding⟩ := GodClass.evaluate_eq_ok hf
  · cases hnone
  obtain rfl := Option.some.inj hfinding
  obtain ⟨hwmc, hatfd, hlimit⟩ := (hg.flags_iff (Binary64.isNaN_of_le htcc).2).1 hflags
  have htwo := GodClass.two_le_excess hg.one_le hg.zero_le hg.pos hwmc hatfd htcc hlimit
  have hzero := Binary64.zero_le_ofInt (i := 2) (by decide)
  rw [GodClass.score_findingOf, hg.rawScore_eq hx]
  refine ⟨?_, fun m' hwmc' hatfd' htcc' hpos' r hr => ?_⟩
  · have hplaces : (Binary64.ofInt 2).toPlaces 4 = .ofInt 2 := by decide +kernel
    have hrounded := Binary64.toPlaces_le hzero htwo 4
    rwa [hplaces] at hrounded
  · have hlimit' : m'.tcc.lt (.finite false v) = true := Binary64.lt_of_le_of_lt htcc' hlimit rfl
    have hflags' : (godClassOf s).flags m' = true :=
      (hg.flags_iff (Binary64.isNaN_of_le htcc').1).2 ⟨by omega, by omega, hlimit'⟩
    obtain ⟨hnot, -⟩ | ⟨-, x', hx', rfl⟩ := GodClass.evaluate_eq_ok hr
    · rw [hflags'] at hnot
      cases hnot
    · refine ⟨_, rfl, ?_⟩
      rw [GodClass.score_findingOf, hg.rawScore_eq hx']
      refine Binary64.toPlaces_le (Binary64.le_trans hzero htwo) ?_ 4
      exact GodClass.excess_le hg.one_le hg.zero_le hg.pos hwmc hatfd hpos' hlimit hwmc' hatfd' htcc'

/-- With the defaults, a class right at its thresholds has a score of at least two, and it has no greater score than a
class without cohesion that is out further. -/
theorem two_le_score_and_score_le_of_defaults :
    let m : ClassMetrics :=
      { name := "A", line := 1, methodCount := 47, wmc := 47, atfd := 6, tcc := .ofRatio false 3 10 }
    let m' : ClassMetrics := { m with wmc := 60, atfd := 9, tcc := .zero }
    ∃ f f', (godClassOf .default).evaluate m = .ok (some f) ∧ (godClassOf .default).evaluate m' = .ok (some f') ∧
      (Binary64.ofInt 2).le f.score = true ∧ f.score.le f'.score = true := by
  intro m m'
  have hfinds : ∀ {r : Except Fault (Option Finding)}, r.toOption.join.isSome = true → ∃ f, r = .ok (some f) := by
    rintro (e | none | f) h
    · cases h
    · cases h
    · exact ⟨f, rfl⟩
  obtain ⟨⟨⟩, hvalid⟩ : ∃ u, Settings.default.validate = .ok u := exists_eq_ok_of_isOk (by decide +kernel)
  obtain ⟨f, hf⟩ : ∃ f, (godClassOf .default).evaluate m = .ok (some f) := hfinds (by decide +kernel)
  obtain ⟨r, hr⟩ : ∃ r, (godClassOf .default).evaluate m' = .ok r := exists_eq_ok_of_isOk (by decide +kernel)
  obtain ⟨htwo, hmono⟩ := two_le_score_and_score_le Field.admits_default hvalid (by decide +kernel) hf
  obtain ⟨f', rfl, hle⟩ := hmono m' (by decide) (by decide) (by decide +kernel) (by decide +kernel) r hr
  exact ⟨f, f', hf, hr, htwo, hle⟩

end Triage

end Hotspots
