import Mathlib
import ThermalLabel.Proofs.Number.FewestDigits
import ThermalLabel.Proofs.Number.HalfUp
import ThermalLabel.Proofs.Number.Written
/-!
# Rounding half away from zero

A number is rounded to the integer nearest to the decimal that stands for it, of two to the one
farther from zero, as long as that integer has no more than twenty-eight digits. Where two decimals
stand for a number equally well, both lie on one side of every point halfway between integers, so
that it does not matter which of them is written.
-/

namespace ThermalLabel

open Float.Model Float.Model.UnpackedFloat Binary64

variable {v w d d' : ℚ} {n k k' : ℕ} {m : ℕ} {e : ℤ} {i j : ℤ} {x y : Float}

/-! ## Either sign -/

theorem Binary64.storedValue_neg (v : ℚ) : storedValue (-v) = -storedValue v := by
  rcases lt_trichotomy v 0 with h | rfl | h
  · rw [storedValue_of_nonneg (neg_pos.2 h).le, storedValue, if_pos h, neg_neg]
  · have hzero : storedValue 0 = 0 := (storedValue_of_nonneg le_rfl).trans stored_zero
    rw [neg_zero, hzero, neg_zero]
  · rw [storedValue_neg_of_pos h, storedValue_of_nonneg h.le]

theorem Binary64.storedValue_mono (h : v ≤ w) : storedValue v ≤ storedValue w := by
  obtain hv | hv := le_or_gt 0 v
  · rw [storedValue_of_nonneg hv, storedValue_of_nonneg (hv.trans h)]
    exact stored_mono hv h
  · rw [storedValue, if_pos hv]
    obtain hw | hw := le_or_gt 0 w
    · rw [storedValue_of_nonneg hw]
      exact (neg_nonpos.2 (stored_nonneg (neg_pos.2 hv).le)).trans (stored_nonneg hw)
    · rw [storedValue, if_pos hw]
      exact neg_le_neg (stored_mono (neg_pos.2 hw).le (neg_le_neg h))

theorem HasDigits.neg (h : HasDigits k d) : HasDigits k (-d) := by
  obtain ⟨a, p, ha, rfl⟩ := h
  exact ⟨-a, p, by rwa [abs_neg], by push_cast; ring⟩

theorem ShortestWith.neg (h : ShortestWith k w d) : ShortestWith k (-w) (-d) := by
  have hreads {q : ℚ} (hq : storedValue q = -w) : storedValue (-q) = w := by
    rw [storedValue_neg, hq, neg_neg]
  refine ⟨by rw [storedValue_neg, h.reads], h.digits.neg, ?_, ?_⟩
  · intro q j hq hj
    exact h.fewest (-q) j (hreads hq) hj.neg
  · intro q hq hk
    have hnear := h.nearest (-q) (hreads hq) hk.neg
    rw [← abs_neg, ← abs_neg (q - -w)]
    convert hnear using 2 <;> ring

/-! ## Decimals that stand for a number equally well -/

/-- No number lies in the middle of a whole step that is no longer than one of its own. -/
theorem not_middle_of_whole {a p : ℕ} (hstep : (10 : ℚ) ^ p ≤ 2 ^ e) :
    2 * ((m : ℚ) * 2 ^ e) ≠ (2 * a + 1) * 10 ^ p := by
  intro hmiddle
  have he : 0 ≤ e := by
    by_contra hneg
    have hsmall : (2 : ℚ) ^ e < 1 := zpow_lt_one_of_neg₀ (by norm_num) (not_le.1 hneg)
    have hlarge : (1 : ℚ) ≤ 10 ^ p := one_le_pow₀ (by norm_num)
    linarith
  obtain ⟨e, rfl⟩ := Int.eq_ofNat_of_zero_le he
  rw [zpow_natCast] at hstep hmiddle
  have hstep' : 10 ^ p ≤ 2 ^ e := by exact_mod_cast hstep
  have hmiddle' : 2 * (m * 2 ^ e) = (2 * a + 1) * 10 ^ p := by exact_mod_cast hmiddle
  have hpe : p ≤ e := by
    refine (Nat.pow_le_pow_iff_right (a := 2) (by decide)).1 (le_trans ?_ hstep')
    exact Nat.pow_le_pow_left (by decide) p
  obtain ⟨c, rfl⟩ := Nat.exists_eq_add_of_le hpe
  have hten : 10 ^ p = 2 ^ p * 5 ^ p := by rw [← Nat.mul_pow]
  have hodd : 2 * (m * 2 ^ c) = (2 * a + 1) * 5 ^ p := by
    apply Nat.eq_of_mul_eq_mul_left (Nat.two_pow_pos p)
    calc 2 ^ p * (2 * (m * 2 ^ c)) = 2 * (m * 2 ^ (p + c)) := by rw [Nat.pow_add]; ring
      _ = 2 ^ p * ((2 * a + 1) * 5 ^ p) := by rw [hmiddle', hten]; ring
  have hfive : Odd ((2 * a + 1) * 5 ^ p) := (odd_two_mul_add_one a).mul (Odd.pow (by decide))
  exact Nat.not_even_iff_odd.2 hfive (hodd ▸ even_two_mul _)

/-- In the middle of a step of a fraction, the step does not end on a point halfway between
integers. -/
theorem not_dvd_of_middle {a p : ℕ} (hp : 0 < p)
    (hmiddle : 2 * ((m : ℚ) * 2 ^ e) * 10 ^ p = 2 * a + 1) : ¬5 ∣ a + 1 := by
  intro hdvd
  have hclear : 2 * m * 2 ^ e.toNat * 10 ^ p = (2 * a + 1) * 2 ^ (-e).toNat := by
    rw [zpow_eq_div (by norm_num) e] at hmiddle
    field_simp at hmiddle
    rw [mul_comm (2 * a + 1)]
    exact_mod_cast hmiddle
  have hten : 5 ∣ 10 ^ p := dvd_pow (by decide) hp.ne'
  have hproduct : 5 ∣ (2 * a + 1) * 2 ^ (-e).toNat := hclear ▸ Dvd.dvd.mul_left hten _
  have hcoprime : Nat.Coprime 5 (2 ^ (-e).toNat) := Nat.Coprime.pow_right _ (by decide)
  have hodd := hcoprime.dvd_of_dvd_mul_right hproduct
  omega

theorem ShortestWith.pos (h : Canonical m e) (hd : ShortestWith k (m * 2 ^ e) d) : 0 < k := by
  have hpositive := h.magnitude_pos
  obtain ⟨-, hstored⟩ := (storedValue_eq_iff_of_pos hpositive).1 hd.reads
  by_contra hzero
  obtain rfl : k = 0 := by omega
  rw [eq_zero_of_hasDigits_zero hd.digits, stored_zero] at hstored
  exact hpositive.ne hstored

theorem ShortestWith.onGrid (h : Canonical m e) (hd : ShortestWith k (m * 2 ^ e) d) :
    ∃ a : ℕ, readsBack m e a (leadingPlace m e - k) = true ∧
      d = a * 10 ^ (leadingPlace m e - k) := by
  obtain ⟨hnonneg, hstored⟩ := (storedValue_eq_iff_of_pos h.magnitude_pos).1 hd.reads
  obtain ⟨c, hc, heq | ⟨hfew, hlt⟩⟩ :=
    exists_readsBack_of_hasDigits h (hd.pos h) hnonneg hstored hd.digits
  · exact ⟨c, hc, heq⟩
  · have hreads : storedValue (c * 10 ^ (leadingPlace m e - k)) = m * 2 ^ e := by
      rw [storedValue_of_nonneg (multiple_nonneg c _)]
      exact (readsBack_iff_stored h).1 hc
    exact absurd (hd.nearest _ hreads hfew) (not_le.2 hlt)

/-- Between two decimals of a grid that are equally near to their number there is no other: it would
be nearer than they are. -/
theorem ShortestWith.succ_eq {a b : ℕ} {p : ℤ} (h : Canonical m e)
    (hd : ShortestWith k (m * 2 ^ e) (a * 10 ^ p)) (hb : stored (b * 10 ^ p) = m * 2 ^ e)
    (hmiddle : 2 * ((m : ℚ) * 2 ^ e) = a * 10 ^ p + b * 10 ^ p) (hfew : a < 10 ^ k) (hab : a < b) :
    a + 1 = b := by
  by_contra hfar
  have hstep : (0 : ℚ) < 10 ^ p := by positivity
  have hbetween : ((a + 1 : ℕ) : ℚ) * 10 ^ p < b * 10 ^ p := by
    refine mul_lt_mul_of_pos_right ?_ hstep
    exact_mod_cast (by omega : a + 1 < b)
  have ha := ((storedValue_eq_iff_of_pos h.magnitude_pos).1 hd.reads).2
  have hreads : stored ((a + 1 : ℕ) * 10 ^ p) = m * 2 ^ e :=
    stored_eq_of_between ha hb (multiple_nonneg a p) (multiple_le (Nat.le_succ a) p) hbetween.le
  have hcloser := hd.nearest _ ((storedValue_of_nonneg (multiple_nonneg _ p)).trans hreads)
    (hasDigits_multiple (hd.pos h) hfew p)
  have hbelow := multiple_le hab.le p
  rw [abs_of_nonpos (by linarith)] at hcloser
  refine absurd hcloser (not_le.2 (abs_lt.2 ⟨?_, by linarith⟩))
  push_cast
  linarith

/-- Two decimals that stand for a number are the ends of a step with the number in its middle. -/
theorem ShortestWith.exists_step (h : Canonical m e) (hd : ShortestWith k (m * 2 ^ e) d)
    (hd' : ShortestWith k (m * 2 ^ e) d') (hlt : d < d') :
    ∃ (a : ℕ) (p : ℤ), d = a * 10 ^ p ∧ d' = (a + 1 : ℕ) * 10 ^ p ∧
      2 * ((m : ℚ) * 2 ^ e) = (2 * a + 1) * 10 ^ p ∧ (10 : ℚ) ^ p ≤ 2 ^ e := by
  obtain ⟨a, ha, rfl⟩ := hd.onGrid h
  obtain ⟨b, hb, rfl⟩ := hd'.onGrid h
  have hnear := near_of_readsBack h.pos ha
  have hleading := (leadingPlace_spec h.pos e).2
  rw [readsBack_iff_stored h] at hb
  rw [pow_leadingPlace k] at hleading
  generalize leadingPlace m e - k = p at *
  have hstep : (0 : ℚ) < 10 ^ p := by positivity
  have hsame : |(a : ℚ) * 10 ^ p - m * 2 ^ e| = |(b : ℚ) * 10 ^ p - m * 2 ^ e| :=
    le_antisymm (hd.nearest _ hd'.reads hd'.digits) (hd'.nearest _ hd.reads hd.digits)
  have hmiddle : 2 * ((m : ℚ) * 2 ^ e) = a * 10 ^ p + b * 10 ^ p := by
    obtain hside | hside := abs_eq_abs.1 hsame <;> linarith
  have hab : a < b := by
    have hcast : (a : ℚ) < b := lt_of_mul_lt_mul_right hlt hstep.le
    exact_mod_cast hcast
  have hfew : a < 10 ^ k := by
    have hbelow : (a : ℚ) * 10 ^ p < (10 ^ k : ℕ) * 10 ^ p := by linarith
    have hcast : (a : ℚ) < (10 ^ k : ℕ) := lt_of_mul_lt_mul_right hbelow hstep.le
    exact_mod_cast hcast
  obtain rfl := hd.succ_eq h hb hmiddle hfew hab
  push_cast at hmiddle
  refine ⟨a, p, rfl, rfl, by linarith, ?_⟩
  rw [abs_le] at hnear
  linarith

/-- A step of a fraction crosses a point halfway between integers only where it ends on one. -/
theorem floor_add_half_step {a t : ℕ} (h : ¬5 ∣ a + 1) :
    ⌊((a + 1 : ℕ) : ℚ) * 10 ^ (-(t + 1 : ℕ) : ℤ) + 1 / 2⌋ =
      ⌊(a : ℚ) * 10 ^ (-(t + 1 : ℕ) : ℤ) + 1 / 2⌋ := by
  have hfraction (b : ℕ) : (b : ℚ) * 10 ^ (-(t + 1 : ℕ) : ℤ) + 1 / 2 =
      ((b + 5 * 10 ^ t : ℕ) : ℚ) / (10 * 10 ^ t : ℕ) := by
    rw [zpow_neg, zpow_natCast, pow_succ]
    push_cast
    field_simp
    ring
  have hstep : ¬10 * 10 ^ t ∣ a + 5 * 10 ^ t + 1 := by
    intro hdvd
    have hfive : 5 ∣ a + 1 + 5 * 10 ^ t := by
      rw [add_right_comm]
      exact (Dvd.dvd.mul_right (by decide) _).trans hdvd
    exact h ((Nat.dvd_add_left (Dvd.intro _ rfl)).1 hfive)
  rw [hfraction, hfraction, Rat.floor_natCast_div_natCast, Rat.floor_natCast_div_natCast,
    add_right_comm, ← Int.natCast_div, ← Int.natCast_div, Nat.succ_div_of_not_dvd hstep]

/-- It does not matter for the nearest integer which decimal stands for a number. -/
theorem ShortestWith.floor_add_half_eq (h : Canonical m e) (hd : ShortestWith k (m * 2 ^ e) d)
    (hd' : ShortestWith k' (m * 2 ^ e) d') : ⌊d' + 1 / 2⌋ = ⌊d + 1 / 2⌋ := by
  obtain rfl : k = k' :=
    le_antisymm (hd.fewest _ _ hd'.reads hd'.digits) (hd'.fewest _ _ hd.reads hd.digits)
  wlog hlt : d < d' generalizing d d'
  · obtain heq | hgt := (not_lt.1 hlt).eq_or_lt
    · rw [heq]
    · exact (this hd' hd hgt).symm
  obtain ⟨a, p, rfl, rfl, hmiddle, hstep⟩ := hd.exists_step h hd' hlt
  obtain ⟨t, rfl | rfl⟩ : ∃ t : ℕ, p = t ∨ p = -(t + 1 : ℕ) := by
    obtain hp | hp := le_or_gt 0 p
    · exact ⟨p.toNat, .inl (Int.toNat_of_nonneg hp).symm⟩
    · exact ⟨(-p - 1).toNat, .inr (by omega)⟩
  · rw [zpow_natCast] at hmiddle hstep
    exact absurd hmiddle (not_middle_of_whole hstep)
  · have hcleared : 2 * ((m : ℚ) * 2 ^ e) * 10 ^ (t + 1) = 2 * a + 1 := by
      rw [hmiddle, mul_assoc, ← zpow_natCast, ← zpow_add₀ (by norm_num), neg_add_cancel, zpow_zero,
        mul_one]
    exact floor_add_half_step (not_dvd_of_middle (Nat.succ_pos t) hcleared)

theorem ShortestWith.nonneg (h : Canonical m e) (hd : ShortestWith k (m * 2 ^ e) d) : 0 ≤ d :=
  ((storedValue_eq_iff_of_pos h.magnitude_pos).1 hd.reads).1

theorem shortestWith_zero : ShortestWith 0 0 0 := by
  refine ⟨(storedValue_of_nonneg le_rfl).trans stored_zero, ⟨0, 0, by decide, by norm_num⟩,
    fun q j _ _ => Nat.zero_le j, fun q _ _ => ?_⟩
  rw [sub_zero, abs_zero]
  exact abs_nonneg _

theorem ShortestWith.eq_zero (hd : ShortestWith k 0 d) : d = 0 := by
  have hk := hd.fewest 0 0 shortestWith_zero.reads shortestWith_zero.digits
  obtain rfl : k = 0 := by omega
  exact eq_zero_of_hasDigits_zero hd.digits

/-- The integers nearest to two decimals that stand for one number are the same. -/
theorem ShortestWith.nearestAway_of_nearestAway (hx : x.isFinite = true)
    (hd : ShortestWith k (valueOf x) d) (hd' : ShortestWith k' (valueOf x) d')
    (h : NearestAway d i) : NearestAway d' i := by
  have hcanonical := isCanonical_unpack x.toModel
  unfold valueOf at hd hd'
  rcases zero_or_finite (x := x.toModel.unpack) hx with ⟨s, hs⟩ | ⟨s, m, e, hm, hs⟩
  · have hzero : value (.zero s) = 0 := rfl
    rw [hs, hzero] at hd hd'
    rwa [hd'.eq_zero, ← hd.eq_zero]
  · rw [hs] at hd hd' hcanonical
    have hpositive {c c' : ℚ} {n : ℤ} (hc : ShortestWith k (m * 2 ^ e) c)
        (hc' : ShortestWith k' (m * 2 ^ e) c') (hn : NearestAway c n) : NearestAway c' n := by
      rw [hn.unique (nearestAway_floor (hc.nonneg hcanonical)),
        ← hc.floor_add_half_eq hcanonical hc']
      exact nearestAway_floor (hc'.nonneg hcanonical)
    cases s
    · have hneg (c : ℚ) (n : ℤ) (hn : NearestAway (- -c) (- -n)) : NearestAway c n := by
        rwa [neg_neg, neg_neg] at hn
      refine hneg _ _ (NearestAway.neg (hpositive (c := -d) ?_ ?_ h.neg))
      · simpa only [value, signed, neg_neg] using hd.neg
      · simpa only [value, signed, neg_neg] using hd'.neg
    · exact hpositive hd hd' h

/-! ## Rounding -/

theorem Decimal.magnitude_nonneg (d : Decimal) : 0 ≤ d.magnitude := multiple_nonneg _ _

theorem Decimal.nearestAway_nearestInt (d : Decimal) : NearestAway d.value d.nearestInt := by
  have hmagnitude := nearestAway_floor d.magnitude_nonneg
  rw [← d.wholeMagnitude_eq] at hmagnitude
  unfold value nearestInt
  split
  · exact hmagnitude.neg
  · exact hmagnitude

/-- The decimal that a finite number is written and rounded as stands for it. -/
theorem exists_shortestText (hx : x.isFinite = true) :
    ∃ d : Decimal, shortestText x = d.text .shortest ∧ roundHalfUp x = d.round? ∧
      ∃ k, ShortestWith k (valueOf x) d.value := by
  have hcanonical := isCanonical_unpack x.toModel
  unfold shortestText roundHalfUp ExactValue.ofFloat valueOf
  rcases zero_or_finite (x := x.toModel.unpack) hx with ⟨s, hs⟩ | ⟨s, m, e, hm, hs⟩
  · have hvalue (negative : Bool) : (shortestDecimal negative 0 0).value = 0 := by
      cases negative <;> norm_num [Decimal.value, Decimal.magnitude, shortestDecimal]
    rw [hs]
    refine ⟨_, rfl, rfl, 0, ?_⟩
    rw [hvalue]
    exact shortestWith_zero
  · rw [hs] at hcanonical ⊢
    obtain ⟨k, -, hshortest⟩ := exists_shortestWith hcanonical
    refine ⟨_, rfl, rfl, k, ?_⟩
    have hmagnitude : (shortestDecimal true m e).magnitude =
        (shortestDecimal false m e).magnitude := by
      rw [shortestDecimal_of_pos true hm, shortestDecimal_of_pos false hm]
    have hsign (negative : Bool) : (shortestDecimal negative m e).negative = negative := by
      rw [shortestDecimal, if_neg hm.ne']
    cases s
    · change ShortestWith k (-(m * 2 ^ e)) (shortestDecimal true m e).value
      rw [Decimal.value, hsign, if_pos rfl, hmagnitude]
      exact hshortest.neg
    · change ShortestWith k (m * 2 ^ e) (shortestDecimal false m e).value
      rwa [Decimal.value, hsign, if_neg Bool.false_ne_true]

/-- A finite number is rounded to the integer nearest to any decimal that stands for it. -/
theorem roundHalfUp_of_shortest (hx : x.isFinite = true) (hd : ShortestWith k (valueOf x) d) :
    ∃ n, NearestAway d n ∧
      roundHalfUp x = if |n| < 10 ^ 28 then .ok n else .error .roundTooManyDigits := by
  obtain ⟨c, -, hround, k', hc⟩ := exists_shortestText hx
  exact ⟨c.nearestInt, hc.nearestAway_of_nearestAway hx hd c.nearestAway_nearestInt,
    hround.trans c.round?_eq_ite⟩

theorem nearestAway_of_roundHalfUp (hx : x.isFinite = true) (hd : ShortestWith k (valueOf x) d)
    {n : Int} (h : roundHalfUp x = .ok n) : NearestAway d n := by
  obtain ⟨i, hi, hround⟩ := roundHalfUp_of_shortest hx hd
  rw [hround] at h
  split at h
  · cases h
    exact hi
  · cases h

theorem roundHalfUp_of_isNaN (hx : x.isNaN = true) :
    roundHalfUp x = .error .roundNotANumber := by
  change x.toModel.unpack.isNaN = true at hx
  unfold roundHalfUp ExactValue.ofFloat
  cases hunpack : x.toModel.unpack with
  | notANumber => rfl
  | _ => rw [hunpack] at hx; cases hx

theorem roundHalfUp_of_isInf (hx : x.isInf = true) :
    roundHalfUp x = .error .roundTooManyDigits := by
  change x.toModel.unpack.isInf = true at hx
  unfold roundHalfUp ExactValue.ofFloat
  cases hunpack : x.toModel.unpack with
  | infinity s => rfl
  | _ => rw [hunpack] at hx; cases hx

theorem Binary64.unpack_neg (x : Float) : (-x).toModel.unpack = x.toModel.unpack.neg := by
  have hcanonical : IsCanonical x.toModel.unpack.neg := by
    have h := isCanonical_unpack x.toModel
    cases hx : x.toModel.unpack <;> rw [hx] at h <;> exact h
  exact hcanonical.unpack_pack

theorem Binary64.valueOf_neg (x : Float) : valueOf (-x) = -valueOf x := by
  rw [valueOf, unpack_neg, value_neg]
  rfl

theorem isFinite_neg_eq (x : Float) : (-x).isFinite = x.isFinite := by
  change (-x).toModel.unpack.isFinite = x.toModel.unpack.isFinite
  rw [Binary64.unpack_neg]
  cases x.toModel.unpack <;> rfl

/-- The opposite number is rounded to the opposite integer. -/
theorem roundHalfUp_neg (x : Float) : roundHalfUp (-x) = (roundHalfUp x).map fun n => -n := by
  cases hx : x.isFinite
  · -- What is not finite is not rounded, whatever its sign.
    change x.toModel.unpack.isFinite = false at hx
    unfold roundHalfUp ExactValue.ofFloat
    rw [Binary64.unpack_neg]
    cases hunpack : x.toModel.unpack with
    | notANumber => rfl
    | infinity s => rfl
    | zero s => rw [hunpack] at hx; cases hx
    | finite s m e hm => rw [hunpack] at hx; cases hx
  · obtain ⟨c, -, -, k, hc⟩ := exists_shortestText hx
    have hc' := hc.neg
    rw [← Binary64.valueOf_neg] at hc'
    obtain ⟨n, hn, hround⟩ := roundHalfUp_of_shortest hx hc
    obtain ⟨n', hn', hround'⟩ := roundHalfUp_of_shortest ((isFinite_neg_eq x).trans hx) hc'
    rw [hround, hround', hn'.unique hn.neg, abs_neg]
    split <;> rfl

/-- Numbers of one value are rounded to one integer. -/
theorem roundHalfUp_congr (hx : x.toModel.unpack ≠ .notANumber)
    (hy : y.toModel.unpack ≠ .notANumber) (h : valueOf x = valueOf y) :
    roundHalfUp x = roundHalfUp y := by
  by_cases hxf : x.isFinite = true
  · have hyf : y.isFinite = true := by
      apply isFinite_of_abs_valueOf_lt hy
      rw [← h]
      exact (isCanonical_unpack x.toModel).abs_value_lt hxf
    by_cases hzero : valueOf x = 0
    · obtain ⟨s, hs⟩ := unpack_of_valueOf_eq_zero hxf hzero
      obtain ⟨t, ht⟩ := unpack_of_valueOf_eq_zero hyf (h.symm.trans hzero)
      rw [roundHalfUp_of_zero hs, roundHalfUp_of_zero ht]
    · rw [eq_of_valueOf_eq hxf hyf h hzero]
  · have hyf : ¬y.isFinite = true := by
      intro hyf
      apply hxf
      apply isFinite_of_abs_valueOf_lt hx
      rw [h]
      exact (isCanonical_unpack y.toModel).abs_value_lt hyf
    obtain ⟨s, hs⟩ := (infinity_or_isFinite hx).resolve_right hxf
    obtain ⟨t, ht⟩ := (infinity_or_isFinite hy).resolve_right hyf
    unfold roundHalfUp ExactValue.ofFloat
    rw [hs, ht]

theorem isFinite_of_roundHalfUp {n : Int} (h : roundHalfUp x = .ok n) : x.isFinite = true := by
  change x.toModel.unpack.isFinite = true
  unfold roundHalfUp ExactValue.ofFloat at h
  cases hx : x.toModel.unpack with
  | notANumber => rw [hx] at h; cases h
  | infinity s => rw [hx] at h; cases h
  | zero s => rfl
  | finite s m e hm => rfl

/-- A number that is not larger is not rounded to a larger integer. -/
theorem roundHalfUp_mono {n n' : Int} (h : valueOf x ≤ valueOf y) (hn : roundHalfUp x = .ok n)
    (hn' : roundHalfUp y = .ok n') : n ≤ n' := by
  have hx := isFinite_of_roundHalfUp hn
  have hy := isFinite_of_roundHalfUp hn'
  obtain ⟨c, -, -, k, hc⟩ := exists_shortestText hx
  obtain ⟨c', -, -, k', hc'⟩ := exists_shortestText hy
  obtain heq | hlt := h.eq_or_lt
  · have hsame := roundHalfUp_congr (ne_notANumber_of_isFinite hx) (ne_notANumber_of_isFinite hy)
      heq
    rw [hn, hn'] at hsame
    exact (Except.ok.inj hsame).le
  · have hle : c.value ≤ c'.value := by
      by_contra hgt
      have hstored := storedValue_mono (not_le.1 hgt).le
      rw [hc.reads, hc'.reads] at hstored
      exact absurd hstored (not_le.2 hlt)
    exact (nearestAway_of_roundHalfUp hx hc hn).mono (nearestAway_of_roundHalfUp hy hc' hn') hle

/-! ## Rounding as a whole -/

/-- Rounding half away from zero: the decimal `d` that stands for a number is rounded to the nearest
integer, of two to the one farther from zero, if that has no more than twenty-eight digits. -/
structure HalfAwayFromZero (round : Float → Except NumberError Int) : Prop where
  notANumber : ∀ x : Float, x.isNaN = true → round x = .error .roundNotANumber
  infinite : ∀ x : Float, x.isInf = true → round x = .error .roundTooManyDigits
  /-- What is written for a number is a decimal that stands for it. -/
  written : ∀ x : Float, x.isFinite = true →
    ∃ c k, numeral? (shortestText x) = some c ∧ ShortestWith k (valueOf x) c.value
  nearest : ∀ (x : Float) (k : Nat) (d : ℚ), x.isFinite = true → ShortestWith k (valueOf x) d →
    ∃ n, NearestAway d n ∧ round x = if |n| < 10 ^ 28 then .ok n else .error .roundTooManyDigits
  near : ∀ (x : Float) (k : Nat) (d : ℚ) (n : Int), x.isFinite = true →
    ShortestWith k (valueOf x) d → round x = .ok n → |(n : ℚ) - d| ≤ 1 / 2
  opposite : ∀ x : Float, round (-x) = (round x).map fun n => -n
  whole : ∀ (x : Float) (k : Nat) (i : Int), x.isFinite = true → ShortestWith k (valueOf x) i →
    round x = if |i| < 10 ^ 28 then .ok i else .error .roundTooManyDigits
  ordered : ∀ (x y : Float) (k l : Nat) (d d' : ℚ) (n n' : Int), x.isFinite = true →
    y.isFinite = true → ShortestWith k (valueOf x) d → ShortestWith l (valueOf y) d' → d ≤ d' →
      round x = .ok n → round y = .ok n' → n ≤ n'

theorem roundHalfUp_halfAwayFromZero : HalfAwayFromZero roundHalfUp where
  notANumber := fun _ => roundHalfUp_of_isNaN
  infinite := fun _ => roundHalfUp_of_isInf
  written := by
    intro x hx
    obtain ⟨d, htext, -, k, hshortest⟩ := exists_shortestText hx
    obtain ⟨c, hread, hvalue⟩ := exists_numeral?_text .shortest d
    exact ⟨c, k, htext ▸ hread, hvalue ▸ hshortest⟩
  nearest := fun _ _ _ => roundHalfUp_of_shortest
  near := fun _ _ _ _ hx hd hn => (nearestAway_of_roundHalfUp hx hd hn).abs_sub_le
  opposite := roundHalfUp_neg
  whole := by
    intro x k i hx hi
    obtain ⟨n, hn, hround⟩ := roundHalfUp_of_shortest hx hi
    rwa [hn.eq_of_intCast] at hround
  ordered := fun _ _ _ _ _ _ _ _ hx hy hd hd' hle hn hn' =>
    (nearestAway_of_roundHalfUp hx hd hn).mono (nearestAway_of_roundHalfUp hy hd' hn') hle

/-- The number `-2.5` is written as the decimal that it is, halfway between `-2` and `-3`. -/
theorem minusTwoAndHalf_rounds_away :
    (∃ k, ShortestWith k (valueOf (-2.5)) (-5 / 2)) ∧ roundHalfUp (-2.5) = .ok (-3) := by
  have hread : numeral? (shortestText (-2.5)) = some ⟨true, 25, -1⟩ := by decide +kernel
  obtain ⟨c, k, hc, hshortest⟩ := roundHalfUp_halfAwayFromZero.written (-2.5) rfl
  obtain rfl := Option.some.inj (hread.symm.trans hc)
  have hvalue : (⟨true, 25, -1⟩ : Decimal).value = -5 / 2 := by
    norm_num [Decimal.value, Decimal.magnitude]
  rw [hvalue] at hshortest
  refine ⟨⟨k, hshortest⟩, ?_⟩
  obtain ⟨n, hn, hround⟩ := roundHalfUp_halfAwayFromZero.nearest (-2.5) k _ rfl hshortest
  have haway : NearestAway (-5 / 2) (-3) := by
    have hfloor : ⌊(5 : ℚ) / 2 + 1 / 2⌋ = 3 := by norm_num
    have hnearest := (nearestAway_floor (v := 5 / 2) (by norm_num)).neg
    rwa [hfloor, neg_div'] at hnearest
  rwa [hn.unique haway] at hround

end ThermalLabel
