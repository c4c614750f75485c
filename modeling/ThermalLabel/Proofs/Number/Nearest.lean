import Mathlib
import ThermalLabel.Proofs.Number.Value
/-!
# Rounding to the nearest number

A magnitude is stored as the multiple of a power of two nearest to it, the even one of two, where
the power leaves it as many digits as the format has. Rounding keeps the order: a larger magnitude
is not stored as a smaller one.
-/

namespace ThermalLabel.Binary64

open Float.Model Float.Model.UnpackedFloat

variable {v w : ℚ} {m : Nat} {e : Int}

/-! ## The nearest integer -/

/-- A number by its position among the halves: four for each integer below it, and up to three for
what is left, as that is nothing, less than a half, a half, or more. -/
def halves (v : ℚ) : ℤ := ⌊2 * v⌋ + ⌈2 * v⌉

def nearestOfHalves (c : ℤ) : ℤ :=
  if c % 4 < 2 then c / 4
  else if c % 4 = 2 then c / 4 + c / 4 % 2
  else c / 4 + 1

/-- The nearest integer, the even one of two. -/
def nearest (v : ℚ) : ℤ := nearestOfHalves (halves v)

theorem nearestOfHalves_mono {c d : ℤ} (h : c ≤ d) : nearestOfHalves c ≤ nearestOfHalves d := by
  unfold nearestOfHalves
  split_ifs <;> omega

theorem nearest_mono (h : v ≤ w) : nearest v ≤ nearest w := by
  have hdouble : 2 * v ≤ 2 * w := by linarith
  exact nearestOfHalves_mono (add_le_add (Int.floor_mono hdouble) (Int.ceil_mono hdouble))

theorem halves_intCast (n : ℤ) : halves n = 4 * n := by
  have hdouble : 2 * (n : ℚ) = ((2 * n : ℤ) : ℚ) := by push_cast; ring
  rw [halves, hdouble, Int.floor_intCast, Int.ceil_intCast]
  ring

theorem floor_eq_double (v : ℚ) : ⌊v⌋ = ⌊2 * v⌋ / 2 := by
  have hhalf : v = 2 * v / (2 : ℕ) := by push_cast; ring
  conv_lhs => rw [hhalf, Int.floor_div_natCast]
  rfl

theorem halves_div_four (v : ℚ) : halves v / 4 = ⌊v⌋ := by
  have hfloor := floor_eq_double v
  have hle := Int.floor_le_ceil (2 * v)
  have hgap := Int.ceil_le_floor_add_one (2 * v)
  rw [hfloor, halves]
  omega

theorem nearest_intCast (n : ℤ) : nearest n = n := by
  rw [nearest, halves_intCast, nearestOfHalves]
  split_ifs <;> omega

/-- No integer is nearer than a half beside the nearest. -/
theorem abs_nearest_sub_le (v : ℚ) : |nearest v - v| ≤ 1 / 2 := by
  have hfloor := Int.floor_le (2 * v)
  have hceil := Int.le_ceil (2 * v)
  have hle := Int.floor_le_ceil (2 * v)
  have hgap := Int.ceil_le_floor_add_one (2 * v)
  have hends : 2 * nearest v - 1 ≤ ⌊2 * v⌋ ∧ ⌈2 * v⌉ ≤ 2 * nearest v + 1 := by
    unfold nearest nearestOfHalves halves
    split_ifs <;> constructor <;> omega
  have hlow : 2 * (nearest v : ℚ) - 1 ≤ ⌊2 * v⌋ := by exact_mod_cast hends.1
  have hhigh : (⌈2 * v⌉ : ℚ) ≤ 2 * nearest v + 1 := by exact_mod_cast hends.2
  rw [abs_le]
  constructor <;> linarith

/-! ## Dropping digits -/

/-- A mantissa with its round bit and its sticky bit, by its position among the halves. -/
def code (em : ExtendedMantissa) : ℤ :=
  4 * em.mantissa + 2 * em.roundBit.toNat + em.stickyBit.toNat

theorem roundedMantissa_eq (em : ExtendedMantissa) :
    (em.roundedMantissa : ℤ) = nearestOfHalves (code em) := by
  obtain ⟨m, r, s⟩ := em
  cases r <;> cases s <;>
    simp only [ExtendedMantissa.roundedMantissa, ExtendedMantissa.accuracy,
      Accuracy.roundToNearestEven, nearestOfHalves, code, Bool.toNat_false, Bool.toNat_true] <;>
    split_ifs <;> omega

/-- Half a number: two for each four, and one more if anything is left. -/
theorem halves_div_two (v : ℚ) :
    halves (v / 2) = 2 * (halves v / 4) + if halves v % 4 = 0 then 0 else 1 := by
  have hfloor := floor_eq_double v
  have hceil : -⌈v⌉ = -⌈2 * v⌉ / 2 := by
    have hhalf : -v = -(2 * v) / (2 : ℕ) := by push_cast; ring
    have hneg := congrArg Int.floor hhalf
    rwa [Int.floor_div_natCast, Int.floor_neg, Int.floor_neg] at hneg
  have hle := Int.floor_le_ceil (2 * v)
  have hgap := Int.ceil_le_floor_add_one (2 * v)
  have hdouble : 2 * (v / 2) = v := by ring
  unfold halves
  rw [hdouble]
  split_ifs <;> omega

theorem code_shiftRightOne (em : ExtendedMantissa) :
    code em.shiftRightOne = 2 * (code em / 4) + if code em % 4 = 0 then 0 else 1 := by
  obtain ⟨m, r, s⟩ := em
  have hbit : (m % 2 != 0).toNat = m % 2 := by
    rcases Nat.mod_two_eq_zero_or_one m with hm | hm <;> rw [hm] <;> rfl
  cases r <;> cases s <;>
    simp only [code, ExtendedMantissa.shiftRightOne, hbit, Bool.toNat_false, Bool.toNat_true,
      Bool.or_false, Bool.or_true] <;>
    split_ifs <;> omega

/-- Digits that are dropped are remembered as far as rounding goes by them. -/
theorem code_shiftRight {em : ExtendedMantissa} (h : code em = halves v) (k : Nat) :
    code (em >>> k) = halves (v / 2 ^ k) := by
  change code (k.repeat ExtendedMantissa.shiftRightOne em) = _
  induction k with
  | zero => rwa [pow_zero, div_one]
  | succ k ih => rw [Nat.repeat, code_shiftRightOne, ih, pow_succ, ← div_div, halves_div_two]

/-- The first digits of a number, rounded by the others. -/
theorem roundedMantissa_shiftRight {em : ExtendedMantissa} (h : code em = halves v) (k : Nat) :
    ((em >>> k).roundedMantissa : ℤ) = nearest (v / 2 ^ k) := by
  rw [roundedMantissa_eq, code_shiftRight h, nearest]

theorem code_exact (m : Nat) : code (ExtendedMantissa.ofMantissaAndAccuracy m .exact) = halves m := by
  have hm := halves_intCast m
  rw [Int.cast_natCast] at hm
  rw [hm]
  simp [ExtendedMantissa.ofMantissaAndAccuracy, code]

theorem code_div_four (m : Nat) (acc : Accuracy) :
    code (ExtendedMantissa.ofMantissaAndAccuracy m acc) / 4 = m := by
  rcases acc with _ | o
  · simp only [ExtendedMantissa.ofMantissaAndAccuracy, code, Bool.toNat_false]
    omega
  · cases o <;>
      simp only [ExtendedMantissa.ofMantissaAndAccuracy, code, Bool.toNat_false, Bool.toNat_true] <;>
      omega

/-! ## The grid of a magnitude -/

/-- The exponent that leaves a magnitude as many digits as the format has, or the least one. -/
def gridExponent (v : ℚ) : ℤ := max (Int.log 2 v - 52) (-1074)

/-- A magnitude rounded to its grid. -/
def roundedMagnitude (v : ℚ) : ℚ := nearest (v / 2 ^ gridExponent v) * 2 ^ gridExponent v

/-- A magnitude as it is stored, where those that are too large become infinite. -/
def stored (v : ℚ) : ℚ := min (roundedMagnitude v) (2 ^ 1024)

theorem log_eq (hm : 0 < m) (hlow : m * 2 ^ e ≤ v) (hhigh : v < (m + 1) * 2 ^ e) :
    Int.log 2 v = m.log2 + e := by
  have hpos : 0 < v := (magnitude_pos hm e).trans_le hlow
  have hlow' : (2 : ℚ) ^ (m.log2 + e : ℤ) ≤ v := by
    refine le_trans ?_ hlow
    rw [zpow_add₀ (by norm_num), zpow_natCast]
    refine mul_le_mul_of_nonneg_right ?_ (by positivity)
    exact_mod_cast Nat.log2_self_le hm.ne'
  have hhigh' : v < (2 : ℚ) ^ (m.log2 + e + 1 : ℤ) := by
    have hsplit : (m.log2 + e + 1 : ℤ) = ((m.log2 + 1 : ℕ) : ℤ) + e := by push_cast; ring
    refine hhigh.trans_le ?_
    rw [hsplit, zpow_add₀ (by norm_num), zpow_natCast]
    refine mul_le_mul_of_nonneg_right ?_ (by positivity)
    exact_mod_cast Nat.succ_le_of_lt Nat.lt_log2_self
  have hle := (Int.zpow_le_iff_le_log (b := 2) (by norm_num) hpos).1 (by exact_mod_cast hlow')
  have hlt := (Int.lt_zpow_iff_log_lt (b := 2) (by norm_num) hpos).1 (by exact_mod_cast hhigh')
  omega

theorem log_magnitude (hm : 0 < m) (e : Int) : Int.log 2 ((m : ℚ) * 2 ^ e) = m.log2 + e :=
  log_eq hm le_rfl (mul_lt_mul_of_pos_right (lt_add_one _) (by positivity))

theorem gridExponent_magnitude (hm : 0 < m) (e : Int) :
    gridExponent ((m : ℚ) * 2 ^ e) = Format.binary64.targetExponent (totalExponent m e) := by
  rw [gridExponent, log_magnitude hm]
  simp only [Format.targetExponent, Format.minExponent, Format.mantissaBits, totalExponent]
  omega

theorem gridExponent_mono (hv : 0 < v) (h : v ≤ w) : gridExponent v ≤ gridExponent w :=
  max_le_max (sub_le_sub_right (Int.log_mono_right hv h) 52) le_rfl

theorem lt_pow_gridExponent (v : ℚ) : v < 2 ^ (gridExponent v + 53) := by
  have hlog : v < (2 : ℚ) ^ (Int.log 2 v + 1) := by
    exact_mod_cast Int.lt_zpow_succ_log_self (b := 2) (by norm_num) v
  refine hlog.trans_le (zpow_le_zpow_right₀ (by norm_num) ?_)
  have hle : Int.log 2 v - 52 ≤ gridExponent v := le_max_left _ _
  omega

theorem pow_gridExponent_le (hv : 0 < v) (h : -1074 < gridExponent v) :
    2 ^ (gridExponent v + 52) ≤ v := by
  have hgrid : gridExponent v + 52 = Int.log 2 v := by
    unfold gridExponent at h ⊢
    omega
  rw [hgrid]
  exact_mod_cast Int.zpow_log_le_self (b := 2) (by norm_num) hv

/-- No more digits than the format has. -/
theorem nearest_le (v : ℚ) : nearest (v / 2 ^ gridExponent v) ≤ 2 ^ 53 := by
  have hlt : v / 2 ^ gridExponent v ≤ ((2 ^ 53 : ℤ) : ℚ) := by
    rw [div_le_iff₀ (by positivity)]
    have hbound := lt_pow_gridExponent v
    rw [add_comm, zpow_add₀ (by norm_num)] at hbound
    exact_mod_cast hbound.le
  exact (nearest_mono hlt).trans_eq (nearest_intCast _)

/-- All the digits that the format has, unless the exponent is the least one. -/
theorem le_nearest (hv : 0 < v) (h : -1074 < gridExponent v) :
    2 ^ 52 ≤ nearest (v / 2 ^ gridExponent v) := by
  have hle : ((2 ^ 52 : ℤ) : ℚ) ≤ v / 2 ^ gridExponent v := by
    rw [le_div_iff₀ (by positivity)]
    have hbound := pow_gridExponent_le hv h
    rw [add_comm, zpow_add₀ (by norm_num)] at hbound
    exact_mod_cast hbound
  exact (nearest_intCast _).symm.trans_le (nearest_mono hle)

theorem nearest_nonneg (hv : 0 ≤ v) : 0 ≤ nearest v := by
  have hzero := nearest_intCast 0
  rw [Int.cast_zero] at hzero
  exact hzero.symm.trans_le (nearest_mono hv)

/-! ## Rounding keeps the order -/

theorem roundedMagnitude_mono (hv : 0 < v) (h : v ≤ w) :
    roundedMagnitude v ≤ roundedMagnitude w := by
  have hw : 0 < w := hv.trans_le h
  unfold roundedMagnitude
  obtain hgrid | hgrid := (gridExponent_mono hv h).eq_or_lt
  · -- On one grid, rounding is to the nearest integer.
    rw [hgrid]
    have hquotient : v / 2 ^ gridExponent w ≤ w / 2 ^ gridExponent w := by gcongr
    exact mul_le_mul_of_nonneg_right (Int.cast_le.2 (nearest_mono hquotient)) (by positivity)
  · -- Between two grids lies a power of two that neither magnitude is rounded beyond.
    have hfull : -1074 < gridExponent w := (le_max_right _ _).trans_lt hgrid
    have hlow : (nearest (v / 2 ^ gridExponent v) : ℚ) ≤ 2 ^ (53 : ℤ) := by
      exact_mod_cast nearest_le v
    have hhigh : (2 : ℚ) ^ (52 : ℤ) ≤ nearest (w / 2 ^ gridExponent w) := by
      exact_mod_cast le_nearest hw hfull
    calc (nearest (v / 2 ^ gridExponent v) : ℚ) * 2 ^ gridExponent v
        ≤ 2 ^ (53 : ℤ) * 2 ^ gridExponent v := mul_le_mul_of_nonneg_right hlow (by positivity)
      _ = 2 ^ (53 + gridExponent v) := (zpow_add₀ (by norm_num) _ _).symm
      _ ≤ 2 ^ (52 + gridExponent w) := zpow_le_zpow_right₀ (by norm_num) (by omega)
      _ = 2 ^ (52 : ℤ) * 2 ^ gridExponent w := zpow_add₀ (by norm_num) _ _
      _ ≤ nearest (w / 2 ^ gridExponent w) * 2 ^ gridExponent w :=
        mul_le_mul_of_nonneg_right hhigh (by positivity)

theorem roundedMagnitude_nonneg (hv : 0 ≤ v) : 0 ≤ roundedMagnitude v :=
  mul_nonneg (Int.cast_nonneg (nearest_nonneg (div_nonneg hv (by positivity)))) (by positivity)

theorem roundedMagnitude_zero : roundedMagnitude 0 = 0 := by
  have hzero := nearest_intCast 0
  rw [Int.cast_zero] at hzero
  rw [roundedMagnitude, zero_div, hzero, Int.cast_zero, zero_mul]

theorem stored_zero : stored 0 = 0 := by
  rw [stored, roundedMagnitude_zero]
  exact min_eq_left (by positivity)

theorem stored_mono (hv : 0 ≤ v) (h : v ≤ w) : stored v ≤ stored w := by
  obtain rfl | hpos := hv.eq_or_lt
  · rw [stored_zero]
    exact le_min (roundedMagnitude_nonneg h) (by positivity)
  · exact min_le_min_right _ (roundedMagnitude_mono hpos h)

/-- Storing a magnitude adds at most half a step of its grid. -/
theorem stored_le (v : ℚ) : stored v ≤ v + 2 ^ gridExponent v / 2 := by
  have hstep : (0 : ℚ) < 2 ^ gridExponent v := by positivity
  have hnearest := (abs_le.1 (abs_nearest_sub_le (v / 2 ^ gridExponent v))).2
  rw [sub_le_iff_le_add, div_add_div _ _ (by norm_num) hstep.ne', le_div_iff₀ (by positivity)]
    at hnearest
  refine (min_le_left _ _).trans ?_
  rw [roundedMagnitude]
  linarith

/-- Where the grid of a magnitude is not coarser than the magnitude itself, nothing is lost. -/
theorem stored_of_gridExponent_le (hgrid : gridExponent (m * 2 ^ e) ≤ e)
    (hle : (m : ℚ) * 2 ^ e ≤ 2 ^ 1024) : stored (m * 2 ^ e) = m * 2 ^ e := by
  obtain ⟨g, hg⟩ : ∃ g, gridExponent ((m : ℚ) * 2 ^ e) = g := ⟨_, rfl⟩
  rw [hg] at hgrid
  obtain ⟨k, rfl⟩ : ∃ k : ℕ, e = g + k := ⟨(e - g).toNat, by omega⟩
  have hquotient : (m : ℚ) * 2 ^ (g + k) / 2 ^ g = ((m * 2 ^ k : ℕ) : ℤ) := by
    rw [zpow_add₀ (by norm_num), zpow_natCast]
    push_cast
    field_simp
  have hround : roundedMagnitude ((m : ℚ) * 2 ^ (g + k)) = m * 2 ^ (g + k) := by
    rw [roundedMagnitude, hg, hquotient, nearest_intCast, ← hquotient,
      div_mul_cancel₀ _ (by positivity)]
  exact (congrArg (min · _) hround).trans (min_eq_left hle)

/-- What the format has is stored as it is. -/
theorem stored_of_canonical (h : Canonical m e) : stored (m * 2 ^ e) = m * 2 ^ e := by
  have hgrid : gridExponent ((m : ℚ) * 2 ^ e) = e := by
    have htarget := h.targetExponent_eq 0
    rw [Nat.pow_zero, Nat.mul_one, Nat.cast_zero, sub_zero] at htarget
    rw [gridExponent_magnitude h.pos, htarget]
  exact stored_of_gridExponent_le hgrid.le h.magnitude_lt.le

/-! ## What rounding stores -/

theorem value_pack_zero (s : Sign) : value (Float.Model.pack (.zero s)).unpack = 0 := by
  cases s <;> rfl

theorem signed_zero (s : Sign) : signed s 0 = 0 := by
  cases s
  · exact neg_zero
  · rfl

theorem unpack_pack_of_large (hm : 0 < m) (h : 971 < e) (s : Sign) :
    (Float.Model.pack (.finite s m e hm)).unpack = .infinity s := by
  have hbias : Format.binary64.exponentBias = 1023 := rfl
  have hroom : 2 ^ 11 ≤ (e + (1023 : Nat) + (52 : Nat)).toNat + 1 := by omega
  change UnpackedFloat.unpack Format.binary64
    (UnpackedFloat.pack Format.binary64 (.finite s m e hm)) = _
  simp only [UnpackedFloat.pack, hbias, if_pos hroom]
  cases s <;> rfl

/-- A number with the digits of the format is stored unless it is too large. -/
theorem value_pack (hm : 0 < m) (hlt : m < 2 ^ 53) (hmin : -1074 ≤ e)
    (hfull : 2 ^ 52 ≤ m ∨ e = -1074) (s : Sign) :
    value (Float.Model.pack (.finite s m e hm)).unpack = signed s (min (m * 2 ^ e) (2 ^ 1024)) := by
  by_cases hmax : e ≤ 971
  · have hcanonical : Canonical m e := ⟨hm, hlt, hmin, hmax, hfull⟩
    rw [hcanonical.unpack_pack, min_eq_left hcanonical.magnitude_lt.le]
    rfl
  · have hlength : (2 : ℚ) ^ (52 : ℤ) ≤ m := by exact_mod_cast hfull.resolve_right (by omega)
    have hlarge : (2 : ℚ) ^ 1024 ≤ m * 2 ^ e := by
      calc (2 : ℚ) ^ 1024 = 2 ^ (1024 : ℤ) := (zpow_ofNat 2 1024).symm
        _ ≤ 2 ^ (52 + e) := zpow_le_zpow_right₀ (by norm_num) (by omega)
        _ = 2 ^ (52 : ℤ) * 2 ^ e := zpow_add₀ (by norm_num) _ _
        _ ≤ m * 2 ^ e := mul_le_mul_of_nonneg_right hlength (by positivity)
    rw [unpack_pack_of_large hm (not_le.1 hmax), min_eq_right hlarge]
    rfl

/-- A digit beyond the format is dropped without loss, since rounding brings it with zeros only. -/
theorem drop_excess {r : Nat} (hr : r ≤ 2 ^ 53) (hmin : -1074 ≤ e)
    (hfull : 2 ^ 52 ≤ r ∨ e = -1074) :
    ((r / 2 ^ excess r e : Nat) : ℚ) * 2 ^ (e + excess r e) = r * 2 ^ e ∧
      r / 2 ^ excess r e < 2 ^ 53 ∧
        (2 ^ 52 ≤ r / 2 ^ excess r e ∨ e + excess r e = -1074) := by
  obtain hlt | rfl := hr.lt_or_eq
  · have hlog : r.log2 ≤ 52 := log2_le_of_lt hlt
    have hnone : excess r e = 0 := by
      simp only [excess, Format.targetExponent, Format.minExponent, Format.mantissaBits,
        totalExponent]
      omega
    rw [hnone, pow_zero, Nat.div_one, Nat.cast_zero, add_zero]
    exact ⟨rfl, hlt, hfull⟩
  · have hone : excess (2 ^ 53) e = 1 := by
      simp only [excess, Format.targetExponent, Format.minExponent, Format.mantissaBits,
        totalExponent, Nat.log2_two_pow]
      omega
    have hhalf : 2 ^ 53 / 2 ^ 1 = 2 ^ 52 := by norm_num
    rw [hone, hhalf, Nat.cast_one, zpow_add₀ (by norm_num)]
    refine ⟨?_, by norm_num, .inl le_rfl⟩
    push_cast
    ring

/-- The whole part of a magnitude at an exponent has its excess digits. -/
theorem add_excess (hv : 0 < v) (he : e ≤ gridExponent v) (hm : (m : ℤ) = ⌊v / 2 ^ e⌋) :
    e + excess m e = gridExponent v := by
  have hlow : (m : ℚ) ≤ v / 2 ^ e := by
    have hfloor := Int.floor_le (v / 2 ^ e)
    rwa [← hm, Int.cast_natCast] at hfloor
  have hhigh : v / 2 ^ e < (m : ℚ) + 1 := by
    have hfloor := Int.lt_floor_add_one (v / 2 ^ e)
    rwa [← hm, Int.cast_natCast] at hfloor
  rw [le_div_iff₀ (by positivity)] at hlow
  rw [div_lt_iff₀ (by positivity)] at hhigh
  simp only [excess, Format.targetExponent, Format.minExponent, Format.mantissaBits, totalExponent]
  unfold gridExponent at he ⊢
  obtain rfl | hpos := Nat.eq_zero_or_pos m
  · have hlog : Int.log 2 v < e := by
      apply (Int.lt_zpow_iff_log_lt (b := 2) (by norm_num) hv).1
      simpa using hhigh
    rw [Nat.log2_zero]
    omega
  · rw [log_eq hpos hlow hhigh] at he ⊢
    omega

/-- Rounding by what is known of the digits left out stores the number that they belong to. -/
theorem value_roundWithAccuracy {acc : Accuracy} (hv : 0 < v) (he : e ≤ gridExponent v)
    (hcode : code (ExtendedMantissa.ofMantissaAndAccuracy m acc) = halves (v / 2 ^ e)) (s : Sign) :
    value (Float.Model.pack (roundWithAccuracy Format.binary64 s m e acc)).unpack =
      signed s (stored v) := by
  obtain ⟨g, hg⟩ : ∃ g, gridExponent v = g := ⟨_, rfl⟩
  have hmin : -1074 ≤ g := hg ▸ le_max_right _ _
  obtain ⟨a, ha⟩ : ∃ a, excess m e = a := ⟨_, rfl⟩
  have hsum : e + a = g := by
    rw [← ha, ← hg]
    apply add_excess hv he
    rw [← halves_div_four, ← hcode, code_div_four]
  obtain ⟨r, hr⟩ : ∃ r, (ExtendedMantissa.ofMantissaAndAccuracy m acc >>> a).roundedMantissa =
    r := ⟨_, rfl⟩
  have hnearest : (r : ℤ) = nearest (v / 2 ^ g) := by
    have hquotient : v / 2 ^ g = v / 2 ^ e / 2 ^ a := by
      rw [← hsum, zpow_add₀ (by norm_num), zpow_natCast, div_div]
    rw [← hr, hquotient]
    exact roundedMantissa_shiftRight hcode a
  have hstored : stored v = min ((r : ℚ) * 2 ^ g) (2 ^ 1024) := by
    rw [stored, roundedMagnitude, hg, ← hnearest, Int.cast_natCast]
  have hle : r ≤ 2 ^ 53 := by
    have hbound := nearest_le v
    rw [hg, ← hnearest] at hbound
    exact_mod_cast hbound
  have hfull : 2 ^ 52 ≤ r ∨ g = -1074 := by
    obtain heq | hlt := hmin.eq_or_lt
    · exact .inr heq.symm
    · have hbound := le_nearest hv (hg ▸ hlt)
      rw [hg, ← hnearest] at hbound
      exact .inl (by exact_mod_cast hbound)
  obtain ⟨hdropped, hdigits, hlength⟩ := drop_excess hle hmin hfull
  rw [hstored, ← hdropped]
  obtain ⟨hzero, hround⟩ | ⟨hpos, hround⟩ := roundWithAccuracy_steps s ha hr rfl
  · rw [hsum] at hzero
    rw [hround, value_pack_zero, hzero, Nat.cast_zero, zero_mul, min_eq_left (by positivity),
      signed_zero]
  · rw [hround]
    simp only [hsum]
    exact value_pack _ hdigits (by omega) hlength s

theorem value_roundWithAccuracy_exact (hm : 0 < m) (he : e ≤ gridExponent (m * 2 ^ e)) (s : Sign) :
    value (Float.Model.pack (roundWithAccuracy Format.binary64 s m e .exact)).unpack =
      signed s (stored (m * 2 ^ e)) := by
  have hquotient : (m : ℚ) * 2 ^ e / 2 ^ e = m := mul_div_cancel_right₀ _ (by positivity)
  apply value_roundWithAccuracy (magnitude_pos hm e) he
  rw [hquotient]
  exact code_exact m

theorem value_round (hm : 0 < m) (s : Sign) (e : Int) :
    value (Float.Model.pack (UnpackedFloat.round Format.binary64 s m e)).unpack =
      signed s (stored (m * 2 ^ e)) := by
  obtain ⟨k, hk⟩ : ∃ k, (e - Format.binary64.targetExponent (totalExponent m e)).toNat = k :=
    ⟨_, rfl⟩
  have hround : UnpackedFloat.round Format.binary64 s m e =
      roundWithAccuracy Format.binary64 s (m * 2 ^ k) (e - k) .exact := by
    simp only [UnpackedFloat.round, decreaseExponent, hk, Nat.shiftLeft_eq]
  have hsame : ((m * 2 ^ k : Nat) : ℚ) * 2 ^ (e - k) = m * 2 ^ e := by
    rw [zpow_sub₀ (by norm_num), zpow_natCast]
    push_cast
    field_simp
  have hgrid : e - k ≤ gridExponent (((m * 2 ^ k : Nat) : ℚ) * 2 ^ (e - k)) := by
    rw [hsame, gridExponent_magnitude hm]
    omega
  rw [hround, value_roundWithAccuracy_exact (Nat.mul_pos hm (Nat.two_pow_pos k)) hgrid, hsame]

end ThermalLabel.Binary64
