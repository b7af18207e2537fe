import Hotspots.Number.Decimal
import Hotspots.Proofs.Number.NearOne
import Hotspots.Proofs.Ranking.DenseOrder

/-!
# Rounding keeps the order

Of two ratios the greater one is not the lesser one after rounding (`roundUnits_mono`): within one power of two both are
rounded to multiples of the same step, and otherwise a power of two lies between them. So sums, quotients and values
with a set number of decimal places are in order if the values that they are made from are, as long as these are not
negative. Either zero counts as zero.
-/

namespace Hotspots

/-! ## Ratios -/

section Ratio

variable {n d n' d' : Nat}

/-- Of two ratios in order the integer parts are in order. -/
theorem div_le_div_of_ratio (hd : 0 < d) (hd' : 0 < d') (h : n * d' ≤ n' * d) : n / d ≤ n' / d' := by
  refine (Nat.le_div_iff_mul_le hd').2 (Nat.le_of_mul_le_mul_right ?_ hd)
  calc n / d * d' * d = n / d * d * d' := Nat.mul_right_comm _ _ _
    _ ≤ n * d' := Nat.mul_le_mul_right _ (Nat.div_mul_le_self n d)
    _ ≤ n' * d := h

/-- Ratios in order are rounded to integers in order. -/
theorem divToEven_mono (hd : 0 < d) (hd' : 0 < d') (h : n * d' ≤ n' * d) : divToEven n d ≤ divToEven n' d' := by
  rcases Nat.lt_or_eq_of_le (div_le_div_of_ratio hd hd' h) with hlt | heq
  · calc divToEven n d ≤ n / d + 1 := divToEven_le n d
      _ ≤ n' / d' := hlt
      _ ≤ divToEven n' d' := le_divToEven n' d'
  · -- The integer parts are equal, so that the remainders decide.
    have hrest : 2 * (n % d) * d' ≤ 2 * (n' % d') * d := by
      have hsplit : n * d' = n / d * d * d' + n % d * d' := by rw [← Nat.add_mul, Nat.div_add_mod']
      have hsplit' : n' * d = n / d * d * d' + n' % d' * d := by
        rw [heq, Nat.mul_right_comm, ← Nat.add_mul, Nat.div_add_mod']
      rw [Nat.mul_assoc, Nat.mul_assoc]
      omega
    have hbelow : 2 * (n' % d') < d' → 2 * (n % d) < d := fun hlow =>
      Nat.lt_of_mul_lt_mul_right (a := d') <| calc
        2 * (n % d) * d' ≤ 2 * (n' % d') * d := hrest
        _ < d' * d := Nat.mul_lt_mul_of_pos_right hlow hd
        _ = d * d' := Nat.mul_comm _ _
    have habove : d < 2 * (n % d) → d' < 2 * (n' % d') := fun hhigh =>
      Nat.lt_of_mul_lt_mul_right (a := d) <| calc
        d' * d = d * d' := Nat.mul_comm _ _
        _ < 2 * (n % d) * d' := Nat.mul_lt_mul_of_pos_right hhigh hd'
        _ ≤ 2 * (n' % d') * d := hrest
    unfold divToEven
    dsimp only
    rw [heq]
    split_ifs <;> omega

end Ratio

namespace Binary64

section Ratio

variable {n d n' d' : Nat}

/-- A number of units has at most 53 bits above its spare ones. -/
theorem lt_two_pow_spareBits (units : Nat) : units < 2 ^ (spareBits units + 53) := by
  refine Nat.lt_of_lt_of_le Nat.lt_log2_self (Nat.pow_le_pow_right (by decide) ?_)
  rw [spareBits]
  omega

/-- A ratio is not rounded beyond the power of two above it. -/
theorem roundUnits_le_two_pow (n d : Nat) : roundUnits n d ≤ 2 ^ (spareBits (n / d) + 53) := by
  rw [roundUnits]
  generalize he : spareBits (n / d) = e
  have hquotient : n / d < 2 ^ 53 * 2 ^ e := by
    rw [← Nat.pow_add, Nat.add_comm, ← he]
    exact lt_two_pow_spareBits _
  have hround : divToEven n (d * 2 ^ e) ≤ 2 ^ 53 := by
    have hpart : n / (d * 2 ^ e) < 2 ^ 53 := by
      rw [← Nat.div_div_eq_div_mul]
      exact Nat.div_lt_of_lt_mul (by rwa [Nat.mul_comm])
    exact Nat.le_trans (divToEven_le n _) hpart
  calc divToEven n (d * 2 ^ e) * 2 ^ e ≤ 2 ^ 53 * 2 ^ e := Nat.mul_le_mul_right _ hround
    _ = 2 ^ (e + 53) := by rw [← Nat.pow_add, Nat.add_comm]

/-- A ratio with spare bits is not rounded below the power of two under it. -/
theorem two_pow_le_roundUnits (h : 0 < spareBits (n / d)) : 2 ^ (spareBits (n / d) + 52) ≤ roundUnits n d := by
  have hne : n / d ≠ 0 := by
    intro hzero
    simp [hzero, spareBits] at h
  rw [roundUnits]
  generalize he : spareBits (n / d) = e at h
  have hlow : 2 ^ (52 + e) ≤ n / d := by
    refine (Nat.le_log2 hne).1 ?_
    rw [spareBits] at he
    omega
  have hround : 2 ^ 52 ≤ divToEven n (d * 2 ^ e) := by
    refine Nat.le_trans ?_ (le_divToEven n _)
    rw [← Nat.div_div_eq_div_mul]
    exact (Nat.le_div_iff_mul_le (Nat.two_pow_pos e)).2 (by rwa [← Nat.pow_add])
  calc 2 ^ (e + 52) = 2 ^ 52 * 2 ^ e := by rw [← Nat.pow_add, Nat.add_comm]
    _ ≤ divToEven n (d * 2 ^ e) * 2 ^ e := Nat.mul_le_mul_right _ hround

/-- Greater numbers have no fewer spare bits. -/
theorem spareBits_mono {u v : Nat} (h : u ≤ v) : spareBits u ≤ spareBits v := by
  by_cases hzero : u = 0
  · simp [hzero, spareBits]
  · have hlog : u.log2 ≤ v.log2 := (Nat.le_log2 (by omega)).2 (Nat.le_trans (Nat.log2_self_le hzero) h)
    rw [spareBits, spareBits]
    omega

/-- Ratios in order are in order after rounding. -/
theorem roundUnits_mono (hd : 0 < d) (hd' : 0 < d') (h : n * d' ≤ n' * d) : roundUnits n d ≤ roundUnits n' d' := by
  have hspare := spareBits_mono (div_le_div_of_ratio hd hd' h)
  rcases Nat.lt_or_eq_of_le hspare with hlt | heq
  · calc roundUnits n d ≤ 2 ^ (spareBits (n / d) + 53) := roundUnits_le_two_pow n d
      _ ≤ 2 ^ (spareBits (n' / d') + 52) := Nat.pow_le_pow_right (by decide) (by omega)
      _ ≤ roundUnits n' d' := two_pow_le_roundUnits (by omega)
  · rw [roundUnits, roundUnits, heq]
    generalize spareBits (n' / d') = e
    have hpos : 0 < Nat.pow 2 e := Nat.two_pow_pos e
    refine Nat.mul_le_mul_right _ (divToEven_mono (Nat.mul_pos hd hpos) (Nat.mul_pos hd' hpos) ?_)
    rw [← Nat.mul_assoc, ← Nat.mul_assoc]
    exact Nat.mul_le_mul_right _ h

/-- Nothing is rounded to nothing. -/
theorem roundUnits_zero (d : Nat) : roundUnits 0 d = 0 := by
  simp [roundUnits, divToEven]

/-- Nothing is in range. -/
theorem overflowUnits_pos : 0 < overflowUnits := by
  unfold overflowUnits
  generalize unitExponent = u
  exact Nat.two_pow_pos _

/-- A ratio of nothing is zero. -/
theorem ofUnitRatio_zero (negative : Bool) (d : Nat) : ofUnitRatio negative 0 d = .finite negative 0 := by
  rw [ofUnitRatio, roundUnits_zero, if_neg (Nat.not_le.2 overflowUnits_pos)]

/-- Rounding a ratio gives a number. -/
theorem isNaN_ofUnitRatio (negative : Bool) (n d : Nat) : (ofUnitRatio negative n d).isNaN = false := by
  rw [ofUnitRatio]
  split <;> rfl

/-- Units with a sign that is positive or that of zero are themselves. -/
theorem signedUnits_eq {s : Bool} {u : Nat} (h : s = false ∨ u = 0) : signedUnits s u = u := by
  rcases h with rfl | rfl
  · rfl
  · cases s <;> rfl

/-- Ratios in order have values in order. A negative sign is that of zero. -/
theorem ofUnitRatio_le {s t : Bool} (hs : s = false ∨ n = 0) (ht : t = false ∨ n' = 0) (hd : 0 < d) (hd' : 0 < d')
    (h : n * d' ≤ n' * d) : (ofUnitRatio s n d).le (ofUnitRatio t n' d') = true := by
  have hunits := roundUnits_mono hd hd' h
  have hsign : ∀ {b : Bool} {k e : Nat}, b = false ∨ k = 0 → signedUnits b (roundUnits k e) = roundUnits k e :=
    fun h => signedUnits_eq (h.imp_right fun hk => by rw [hk, roundUnits_zero])
  have hinfinite : ∀ {b : Bool} {k e : Nat}, b = false ∨ k = 0 → overflowUnits ≤ roundUnits k e → b = false := by
    rintro b k e (rfl | rfl) hover
    · rfl
    · rw [roundUnits_zero] at hover
      exact absurd hover (Nat.not_le.2 overflowUnits_pos)
  rw [ofUnitRatio, ofUnitRatio]
  by_cases hover : overflowUnits ≤ roundUnits n d
  · rw [if_pos hover, if_pos (Nat.le_trans hover hunits), hinfinite hs hover,
      hinfinite ht (Nat.le_trans hover hunits)]
    rfl
  · rw [if_neg hover]
    by_cases hover' : overflowUnits ≤ roundUnits n' d'
    · rw [if_pos hover', hinfinite ht hover']
      rfl
    · rw [if_neg hover', DenseRank.real_le_iff rfl rfl, place, place, hsign hs, hsign ht, WithBot.coe_le_coe,
        WithTop.coe_le_coe]
      exact Int.ofNat_le.2 hunits

end Ratio

/-! ## Values from zero on -/

section Values

variable {x y z x' y' : Binary64}

/-- Values that compare are numbers. -/
theorem isNaN_of_le (h : x.le y = true) : x.isNaN = false ∧ y.isNaN = false := by
  cases x with
  | nan => cases h
  | _ => cases y <;> first | exact ⟨rfl, rfl⟩ | cases h

/-- The order is transitive. -/
theorem le_trans (hxy : x.le y = true) (hyz : y.le z = true) : x.le z = true := by
  obtain ⟨hx, hy⟩ := isNaN_of_le hxy
  obtain ⟨-, hz⟩ := isNaN_of_le hyz
  rw [DenseRank.real_le_iff hx hy] at hxy
  rw [DenseRank.real_le_iff hy hz] at hyz
  exact (DenseRank.real_le_iff hx hz).2 (hxy.trans hyz)

/-- What is at most a number below another one is below that one. -/
theorem lt_of_le_of_lt (hxy : x.le y = true) (hyz : y.lt z = true) (hz : z.isNaN = false) : x.lt z = true := by
  obtain ⟨hx, hy⟩ := isNaN_of_le hxy
  rw [DenseRank.real_le_iff hx hy] at hxy
  rw [DenseRank.real_lt_iff hy hz] at hyz
  exact (DenseRank.real_lt_iff hx hz).2 (hxy.trans_lt hyz)

/-- Every number is at most itself. -/
theorem le_self (h : x.isNaN = false) : x.le x = true := (DenseRank.real_le_iff h h).2 le_rfl

/-- Zero is at most itself. -/
theorem zero_le_zero : zero.le zero = true := le_self rfl

/-- No number is above infinity. -/
theorem le_infinite (h : x.isNaN = false) : x.le (.infinite false) = true :=
  (DenseRank.real_le_iff h rfl).2 le_top

/-- A value with units from zero on is positive or one of the zeros. -/
theorem zero_le_finite_iff {s : Bool} {u : Nat} : zero.le (.finite s u) = true ↔ s = false ∨ u = 0 := by
  rw [DenseRank.real_le_iff rfl rfl, zero, place, place, WithBot.coe_le_coe, WithTop.coe_le_coe]
  cases s <;> simp [signedUnits]

/-- A value from zero on is infinite or has units. -/
theorem units_of_zero_le (hx : zero.le x = true) :
    x = .infinite false ∨ ∃ s u, x = .finite s u ∧ (s = false ∨ u = 0) := by
  cases x with
  | nan => cases hx
  | infinite s =>
    cases s with
    | true => cases hx
    | false => exact .inl rfl
  | finite s u => exact .inr ⟨s, u, rfl, zero_le_finite_iff.1 hx⟩

/-- Of two values from zero on in order the greater one is infinite, or both have units in order. -/
theorem units_of_le (hx : zero.le x = true) (hxy : x.le y = true) : y = .infinite false ∨
    ∃ s u t v, x = .finite s u ∧ y = .finite t v ∧ (s = false ∨ u = 0) ∧ (t = false ∨ v = 0) ∧ u ≤ v := by
  rcases units_of_zero_le (le_trans hx hxy) with rfl | ⟨t, v, rfl, ht⟩
  · exact .inl rfl
  · rcases units_of_zero_le hx with rfl | ⟨s, u, rfl, hs⟩
    · cases hxy
    · refine .inr ⟨s, u, t, v, rfl, rfl, hs, ht, ?_⟩
      rw [DenseRank.real_le_iff rfl rfl, place, place, signedUnits_eq hs, signedUnits_eq ht, WithBot.coe_le_coe,
        WithTop.coe_le_coe] at hxy
      exact Int.ofNat_le.1 hxy

/-! ## Operations -/

/-- The sum of units from zero on is rounded once. -/
theorem add_finite {s t : Bool} {u v : Nat} (hs : s = false ∨ u = 0) (ht : t = false ∨ v = 0) :
    ∃ b, (b = false ∨ u + v = 0) ∧ (finite s u).add (.finite t v) = ofUnitRatio b (u + v) 1 := by
  have hsum : signedUnits s u + signedUnits t v = (u + v : Nat) := by
    rw [signedUnits_eq hs, signedUnits_eq ht, Int.natCast_add]
  rw [add, hsum]
  by_cases hzero : u + v = 0
  · exact ⟨s && t, .inr hzero, by rw [hzero, ofUnitRatio_zero]; rfl⟩
  · refine ⟨false, .inl rfl, ?_⟩
    rw [if_neg (by omega), decide_eq_false (by omega), Int.natAbs_natCast]

/-- Sums of numbers from zero on are numbers. -/
theorem isNaN_add (hx : zero.le x = true) (hy : zero.le y = true) : (x.add y).isNaN = false := by
  rcases units_of_zero_le hx with rfl | ⟨s, u, rfl, hs⟩
  · rcases units_of_zero_le hy with rfl | ⟨t, v, rfl, -⟩ <;> rfl
  · rcases units_of_zero_le hy with rfl | ⟨t, v, rfl, ht⟩
    · rfl
    · obtain ⟨b, -, hadd⟩ := add_finite hs ht
      rw [hadd, isNaN_ofUnitRatio]

/-- Sums are in order if their terms are. -/
theorem add_le_add (hx : zero.le x = true) (hy : zero.le y = true) (hxx' : x.le x' = true) (hyy' : y.le y' = true) :
    (x.add y).le (x'.add y') = true := by
  have hinfinite : (x.add y).le (.infinite false) = true := le_infinite (isNaN_add hx hy)
  rcases units_of_le hx hxx' with rfl | ⟨s, u, s', u', rfl, rfl, hs, hs', hu⟩
  · rcases units_of_le hy hyy' with rfl | ⟨-, -, t', v', -, rfl, -⟩ <;> exact hinfinite
  · rcases units_of_le hy hyy' with rfl | ⟨t, v, t', v', rfl, rfl, ht, ht', hv⟩
    · exact hinfinite
    · obtain ⟨b, hb, hadd⟩ := add_finite hs ht
      obtain ⟨b', hb', hadd'⟩ := add_finite hs' ht'
      rw [hadd, hadd']
      exact ofUnitRatio_le hb hb' Nat.one_pos Nat.one_pos (by omega)

/-- Sums of numbers from zero on are from zero on. -/
theorem zero_le_add (hx : zero.le x = true) (hy : zero.le y = true) : zero.le (x.add y) = true :=
  add_le_add (x := zero) (y := zero) rfl rfl hx hy

/-- The difference of units, of which the first are more, is rounded once. -/
theorem sub_finite {s t : Bool} {u v : Nat} (hs : s = false ∨ u = 0) (ht : t = false ∨ v = 0) (h : v < u) :
    (finite s u).sub (.finite t v) = ofUnitRatio false (u - v) 1 := by
  have hnegative : signedUnits (!t) v = -(v : Int) := by
    rcases ht with rfl | rfl
    · rfl
    · cases t <;> rfl
  have hsum : signedUnits s u + signedUnits (!t) v = (u - v : Nat) := by
    rw [signedUnits_eq hs, hnegative]
    omega
  rw [sub, neg, add, hsum, if_neg (by omega), decide_eq_false (by omega), Int.natAbs_natCast]

/-- A greater value has a smaller difference to a value above both. -/
theorem sub_le_sub_left {s : Bool} {u : Nat} (hs : s = false ∨ u = 0) (hx : zero.le x = true) (h : x.le y = true)
    (hy : y.lt (.finite s u) = true) :
    zero.le ((finite s u).sub y) = true ∧ ((finite s u).sub y).le ((finite s u).sub x) = true := by
  rcases units_of_le hx h with rfl | ⟨t, v, t', v', rfl, rfl, ht, ht', hv⟩
  · cases hy
  · rw [DenseRank.real_lt_iff rfl rfl, place, place, signedUnits_eq hs, signedUnits_eq ht', WithBot.coe_lt_coe,
      WithTop.coe_lt_coe, Int.ofNat_lt] at hy
    rw [sub_finite hs ht (by omega), sub_finite hs ht' hy]
    refine ⟨?_, ofUnitRatio_le (.inl rfl) (.inl rfl) Nat.one_pos Nat.one_pos (by omega)⟩
    have hzero := ofUnitRatio_le (s := false) (t := false) (.inr rfl) (.inl rfl) Nat.one_pos Nat.one_pos
      (show 0 * 1 ≤ (u - v') * 1 by omega)
    rwa [ofUnitRatio_zero] at hzero

/-- Quotients by a positive value are in order if the dividends are. -/
theorem div_le_div_right (hx : zero.le x = true) (h : x.le y = true) {v : Nat} (hv : 0 < v) :
    (x.div (.finite false v)).le (y.div (.finite false v)) = true := by
  have hdiv : ∀ {s : Bool} {u : Nat}, s = false ∨ u = 0 →
      ∃ b, (b = false ∨ u * one = 0) ∧ (finite s u).div (.finite false v) = ofUnitRatio b (u * one) v := by
    intro s u hs
    refine ⟨s != false, hs.imp (fun hs => by rw [hs]; rfl) fun hu => by rw [hu, Nat.zero_mul], ?_⟩
    rw [div, if_neg (by omega)]
  rcases units_of_le hx h with rfl | ⟨s, u, s', u', rfl, rfl, hs, hs', hu⟩
  · refine le_infinite ?_
    rcases units_of_zero_le hx with rfl | ⟨s, u, rfl, hs⟩
    · rfl
    · obtain ⟨b, -, hquotient⟩ := hdiv hs
      rw [hquotient, isNaN_ofUnitRatio]
  · obtain ⟨b, hb, hquotient⟩ := hdiv hs
    obtain ⟨b', hb', hquotient'⟩ := hdiv hs'
    rw [hquotient, hquotient']
    exact ofUnitRatio_le hb hb' hv hv (Nat.mul_le_mul_right _ (Nat.mul_le_mul_right _ hu))

/-- Quotients of numbers from zero on by a positive value are from zero on. -/
theorem zero_le_div (hx : zero.le x = true) {v : Nat} (hv : 0 < v) : zero.le (x.div (.finite false v)) = true := by
  have hzero : zero.div (.finite false v) = zero := by
    rw [zero, div, if_neg (by omega), Nat.zero_mul, ofUnitRatio_zero]
    rfl
  have h := div_le_div_right (x := zero) rfl hx hv
  rwa [hzero] at h

/-- Values with a set number of decimal places are in order if the values are. -/
theorem toPlaces_le (hx : zero.le x = true) (h : x.le y = true) (places : Nat) :
    (x.toPlaces places).le (y.toPlaces places) = true := by
  have hshift : 0 < Nat.pow 10 places := Nat.pow_pos (by decide)
  have hone : 0 < one := Int.natCast_pos.1 DenseRank.one_pos
  have hplaces : ∀ {s : Bool} {u : Nat}, s = false ∨ u = 0 →
      s = false ∨ divToEven (u * Nat.pow 10 places) one * one = 0 := by
    rintro s u (hs | rfl)
    · exact .inl hs
    · exact .inr (by simp [divToEven])
  rcases units_of_le hx h with rfl | ⟨s, u, s', u', rfl, rfl, hs, hs', hu⟩
  · refine le_infinite ?_
    rcases units_of_zero_le hx with rfl | ⟨s, u, rfl, -⟩
    · rfl
    · rw [toPlaces, ofRatio, isNaN_ofUnitRatio]
  · have hscaled : divToEven (u * Nat.pow 10 places) one ≤ divToEven (u' * Nat.pow 10 places) one :=
      divToEven_mono hone hone (Nat.mul_le_mul_right _ (Nat.mul_le_mul_right _ hu))
    rw [toPlaces, toPlaces, ofRatio, ofRatio]
    exact ofUnitRatio_le (hplaces hs) (hplaces hs') hshift hshift
      (Nat.mul_le_mul_right _ (Nat.mul_le_mul_right _ hscaled))

/-- Values from zero on are not rounded below it. -/
theorem zero_le_toPlaces (hx : zero.le x = true) (places : Nat) : zero.le (x.toPlaces places) = true := by
  have hzero : zero.toPlaces places = zero := by
    rw [zero, toPlaces, Nat.zero_mul, ofRatio, show divToEven 0 one = 0 by simp [divToEven], Nat.zero_mul,
      ofUnitRatio_zero]
  have h := toPlaces_le zero_le_zero hx places
  rwa [hzero] at h

end Values

/-! ## Quotients of integers -/

section Integers

variable {i j k : Int}

/-- The value nearest to a quotient of integers from zero on is that of the ratio. -/
theorem ofIntQuotient_eq (hi : 0 ≤ i) (hk : 0 < k) : ofIntQuotient i k = ofUnitRatio false (i.toNat * one) k.toNat := by
  rw [ofIntQuotient, ofRatio, decide_eq_false (by omega), decide_eq_false (by omega),
    show i.natAbs = i.toNat by omega, show k.natAbs = k.toNat by omega]
  rfl

/-- Quotients of integers by a positive one are in order if the dividends are. -/
theorem ofIntQuotient_le (hi : 0 ≤ i) (h : i ≤ j) (hk : 0 < k) :
    (ofIntQuotient i k).le (ofIntQuotient j k) = true := by
  rw [ofIntQuotient_eq hi hk, ofIntQuotient_eq (hi.trans h) hk]
  refine ofUnitRatio_le (.inl rfl) (.inl rfl) (by omega) (by omega) ?_
  exact Nat.mul_le_mul_right _ (Nat.mul_le_mul_right _ (by omega))

/-- The quotient of an integer from zero on by a positive one is from zero on. -/
theorem zero_le_ofIntQuotient (hi : 0 ≤ i) (hk : 0 < k) : zero.le (ofIntQuotient i k) = true := by
  have hzero : ofIntQuotient 0 k = zero := by
    rw [ofIntQuotient_eq le_rfl hk, Int.toNat_zero, Nat.zero_mul, ofUnitRatio_zero, zero]
  rw [← hzero]
  exact ofIntQuotient_le le_rfl hi hk

/-- The value nearest to an integer from zero on is from zero on. -/
theorem zero_le_ofInt (hi : 0 ≤ i) : zero.le (ofInt i) = true := by
  have hself : ofInt i = ofIntQuotient i 1 := by simp [ofInt, ofIntQuotient]
  rw [hself]
  exact zero_le_ofIntQuotient hi Int.one_pos

/-- The quotient of a positive integer by itself is one. -/
theorem ofIntQuotient_self (hk : 0 < k) : ofIntQuotient k k = ofInt 1 := by
  have hratio := (ofRatio_eq_one_iff (n := k.natAbs) (by omega) le_rfl).2.2 (by omega)
  rw [ofIntQuotient, decide_eq_false (by omega)]
  exact hratio

/-- The quotient of an integer by a positive one up to it is at least one. -/
theorem one_le_ofIntQuotient (hk : 0 < k) (h : k ≤ i) : (ofInt 1).le (ofIntQuotient i k) = true := by
  rw [← ofIntQuotient_self hk]
  exact ofIntQuotient_le hk.le h hk

/-- The quotient of an integer from zero on by one that is not below it is at most one. -/
theorem ofIntQuotient_le_one (hi : 0 ≤ i) (hk : 0 < k) (h : i ≤ k) : (ofIntQuotient i k).le (ofInt 1) = true := by
  rw [← ofIntQuotient_self hk]
  exact ofIntQuotient_le hi h hk

end Integers

end Binary64

end Hotspots
