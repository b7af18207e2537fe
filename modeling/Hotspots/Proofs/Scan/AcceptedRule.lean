import Hotspots.Proofs.Number.RoundedOrder
import Hotspots.Proofs.Scan.GodClassRule

/-!
# Scores under accepted thresholds

Thresholds are accepted if the method count threshold is not below one, that of foreign data is not below zero, and the
one of cohesion is above zero and at most one. They need not be whole, and not even numbers. A class that is out on all
of them has a score from zero on, if it has one at all (`IsAccepted.exists_score`): it can only fail to have one because
a measure is out of range.
-/

namespace Hotspots

namespace Number

variable {b : Number} {i j : Int} {u : Nat} {x : Binary64}

/-- Integers have places in their own order. -/
theorem place_whole_le_iff : (whole i).place ≤ (whole j).place ↔ i ≤ j := by
  rw [Number.place, Number.place, WithBot.coe_le_coe, WithTop.coe_le_coe, Int.mul_le_mul_right DenseRank.one_pos]

/-- The quotient of an integer by a real number above zero is that of the nearest real number, if it is in range. -/
theorem quotient_real_eq_ok_iff (hu : 0 < u) : (whole i).quotient (.real (.finite false u)) = .ok x ↔
    (Binary64.ofInt i).isFinite = true ∧ (Binary64.ofInt i).div (.finite false u) = x := by
  have hquotient : (whole i).quotient (.real (.finite false u)) = (whole i).toReal >>= fun y =>
      if (Binary64.finite false u).isZero then .error .realByZero else .ok (y.div (.finite false u)) := rfl
  rw [hquotient, bind_eq_ok, Binary64.isZero_of_pos false hu]
  simp only [toReal]
  split
  · next hfinite => simp [hfinite]
  · next hinfinite => simp [hinfinite]

/-- A number that is not below one and at most an integer is positive, and so is the integer. -/
theorem pos_of_le (hlow : b.lt (.whole 1) = false) (hle : b.le (.whole i) = true) :
    0 < i ∧ ((∃ j, b = .whole j ∧ 0 < j) ∨ ∃ u, b = .real (.finite false u) ∧ 0 < u) := by
  obtain ⟨hb, -⟩ := DenseRank.isNaN_of_le hle
  rw [DenseRank.le_iff_place hb rfl] at hle
  rw [← Bool.not_eq_true, DenseRank.lt_iff_place hb rfl, not_lt] at hlow
  refine ⟨place_whole_le_iff.1 (hlow.trans hle), ?_⟩
  cases b with
  | whole j => exact .inl ⟨j, rfl, place_whole_le_iff.1 hlow⟩
  | real y =>
    have hone := DenseRank.one_pos
    rw [Number.place, Number.place, Int.one_mul] at hlow
    rw [Number.place, Number.place] at hle
    generalize (Binary64.one : Int) = one at hone hlow hle
    cases y with
    | nan => cases hb
    | infinite s =>
      cases s with
      | true => exact absurd (le_bot_iff.1 hlow) WithBot.coe_ne_bot
      | false => exact absurd hle (not_le_of_gt (DenseRank.coe_lt_top _))
    | finite s u =>
      rw [Binary64.place, WithBot.coe_le_coe, WithTop.coe_le_coe] at hlow
      cases s with
      | true =>
        rw [Binary64.signedUnits, if_pos rfl] at hlow
        omega
      | false =>
        rw [Binary64.signedUnits, if_neg Bool.false_ne_true] at hlow
        exact .inr ⟨u, rfl, by omega⟩

/-- An integer has one quotient by a number that is not below one and at most the integer. It is from zero on, and it is
there if the integer has at most 1023 bits. -/
theorem exists_quotient_of_le (hlow : b.lt (.whole 1) = false) (hle : b.le (.whole i) = true) :
    ∃ y, Binary64.zero.le y = true ∧ (∀ x, (whole i).quotient b = .ok x → x = y) ∧
      (i.natAbs < 2 ^ 1023 → (whole i).quotient b = .ok y) := by
  obtain ⟨hi, ⟨j, rfl, hj⟩ | ⟨u, rfl, hu⟩⟩ := pos_of_le hlow hle
  · exact ⟨_, Binary64.zero_le_ofIntQuotient hi.le hj, fun x hx => ((quotient_whole_eq_ok_iff hj.ne').1 hx).2.symm,
      fun hbits => (quotient_whole_eq_ok_iff hj.ne').2 ⟨Binary64.isFinite_ofIntQuotient le_rfl hbits hj.ne', rfl⟩⟩
  · have hzero := Binary64.zero_le_ofInt hi.le
    exact ⟨_, Binary64.zero_le_div hzero hu, fun x hx => ((quotient_real_eq_ok_iff hu).1 hx).2.symm,
      fun hbits => (quotient_real_eq_ok_iff hu).2 ⟨Binary64.isFinite_ofInt le_rfl hbits, rfl⟩⟩

end Number

/-- The cohesion of a class is from zero on. -/
theorem ClassMetrics.zero_le_cohesion (fields : List (List String)) : Binary64.zero.le (cohesion fields) = true := by
  unfold cohesion
  dsimp only
  split
  · exact Binary64.zero_le_ofInt Int.one_nonneg
  · next hne =>
    have hpairs : 0 < (pairs fields).length := List.length_pos_iff.2 fun h => hne (by rw [h]; rfl)
    exact Binary64.zero_le_ofIntQuotient (Int.natCast_nonneg _) (by omega)

namespace GodClass

/-- A rule with thresholds that are accepted. -/
structure IsAccepted (g : GodClass) : Prop where
  wmc : g.wmcThreshold.lt (.whole 1) = false
  atfd : g.atfdThreshold.lt (.whole 0) = false
  tcc : ∃ v, 0 < v ∧ g.tccThreshold.HasUnits v

/-- A class is out on the three thresholds of a rule. -/
structure IsOut (g : GodClass) (m : ClassMetrics) : Prop where
  wmc : g.wmcThreshold.le (.whole m.wmc) = true
  atfd : g.atfdThreshold.lt (.whole m.atfd) = true
  tcc : (Number.real m.tcc).lt g.tccThreshold = true

variable {g : GodClass} {m : ClassMetrics}

/-- The rule flags the classes that are out on its thresholds. -/
theorem flags_eq_true_iff : g.flags m = true ↔ g.IsOut m := by
  rw [flags, Bool.and_eq_true, Bool.and_eq_true, and_assoc]
  exact ⟨fun ⟨hwmc, hatfd, htcc⟩ => ⟨hwmc, hatfd, htcc⟩, fun h => ⟨h.wmc, h.atfd, h.tcc⟩⟩

/-- It can be decided whether a class is out. -/
instance (g : GodClass) (m : ClassMetrics) : Decidable (g.IsOut m) := decidable_of_iff _ flags_eq_true_iff

namespace IsAccepted

/-- Foreign data above its threshold is divided by a number that is not below one and at most the foreign data. -/
theorem atfdUnit_le (hg : g.IsAccepted) {i : Int} (h : g.atfdThreshold.lt (.whole i) = true) :
    g.atfdUnit.lt (.whole 1) = false ∧ g.atfdUnit.le (.whole i) = true := by
  have hle : g.atfdThreshold.le (.whole i) = true := by
    rw [Number.le, Bool.or_eq_true]
    exact .inl h
  obtain ⟨hnumber, -⟩ := DenseRank.isNaN_of_le hle
  rw [atfdUnit]
  split
  · have hzero := hg.atfd
    rw [← Bool.not_eq_true, DenseRank.lt_iff_place hnumber rfl, not_lt] at hzero
    rw [DenseRank.lt_iff_place hnumber rfl] at h
    have hpos : 0 < i := lt_of_not_ge fun hle => (hzero.trans_lt h).not_ge (Number.place_whole_le_iff.2 hle)
    exact ⟨by rw [Number.lt_whole]; rfl, (DenseRank.le_iff_place rfl rfl).2 (Number.place_whole_le_iff.2 hpos)⟩
  · next hlarge => exact ⟨Bool.eq_false_iff.2 hlarge, hle⟩

/-- A class that is out has one score. It is from zero on if the cohesion is, and it is there if the other two measures
have at most 1023 bits. -/
theorem exists_score (hg : g.IsAccepted) (hm : g.IsOut m) (htcc : Binary64.zero.le m.tcc = true) :
    ∃ y, Binary64.zero.le y = true ∧ (∀ x, g.rawScore m = .ok x → x = y) ∧
      (m.wmc.natAbs < 2 ^ 1023 → m.atfd.natAbs < 2 ^ 1023 → g.rawScore m = .ok y) := by
  obtain ⟨v, hv, hunits⟩ := hg.tcc
  obtain ⟨hlow, hle⟩ := hg.atfdUnit_le hm.atfd
  obtain ⟨weight, hweight, hweight_eq, hweight_ok⟩ := Number.exists_quotient_of_le hg.wmc hm.wmc
  obtain ⟨foreign, hforeign, hforeign_eq, hforeign_ok⟩ := Number.exists_quotient_of_le hlow hle
  have hlimit := (hunits.lt_iff (Binary64.isNaN_of_le htcc).2).1 hm.tcc
  have hself := Binary64.le_self (Binary64.isNaN_of_le htcc).2
  have hlooseness := Binary64.zero_le_div (Binary64.sub_le_sub_left (.inl rfl) htcc hself hlimit).1 hv
  refine ⟨_, Binary64.zero_le_add (Binary64.zero_le_add hweight hforeign) hlooseness, fun x hx => ?_, fun hw ha => ?_⟩
  · obtain ⟨weight', foreign', hweight', hforeign', rfl⟩ :=
      (rawScore_eq_ok_iff hunits.toReal (Binary64.isZero_of_pos false hv)).1 hx
    rw [hweight_eq _ hweight', hforeign_eq _ hforeign']
  · exact (rawScore_eq_ok_iff hunits.toReal (Binary64.isZero_of_pos false hv)).2
      ⟨weight, foreign, hweight_ok hw, hforeign_ok ha, rfl⟩

/-- The rule comes to a finding or to none for measures of at most 1023 bits. -/
theorem exists_evaluate (hg : g.IsAccepted) (htcc : Binary64.zero.le m.tcc = true) (hw : m.wmc.natAbs < 2 ^ 1023)
    (ha : m.atfd.natAbs < 2 ^ 1023) : ∃ r, g.evaluate m = .ok r := by
  unfold evaluate
  split
  · next hflags =>
    obtain ⟨y, -, -, hscore⟩ := hg.exists_score (flags_eq_true_iff.1 hflags) htcc
    exact ⟨_, bind_eq_ok.2 ⟨y, hscore hw ha, rfl⟩⟩
  · exact ⟨none, rfl⟩

/-- The score of a finding is from zero on. -/
theorem zero_le_score (hg : g.IsAccepted) (htcc : Binary64.zero.le m.tcc = true) {f : Finding}
    (h : g.evaluate m = .ok (some f)) : Binary64.zero.le f.score = true := by
  obtain ⟨-, hnone⟩ | ⟨hflags, x, hx, hf⟩ := evaluate_eq_ok h
  · cases hnone
  · obtain ⟨y, hy, heq, -⟩ := hg.exists_score (flags_eq_true_iff.1 hflags) htcc
    rw [Option.some.inj hf, score_findingOf, heq x hx]
    exact Binary64.zero_le_toPlaces hy 4

end IsAccepted

end GodClass

end Hotspots
