import Mathlib
import ThermalLabel.Proofs.Measure.Order
/-!
# Millimetres and dots

There are eight dots to the millimetre, a power of two, so that scaling loses nothing: whole dots
come back from millimetres as they were, and a length in millimetres comes back from dots within
half a dot.
-/

namespace ThermalLabel

open Float.Model Float.Model.UnpackedFloat Binary64

variable {a : Float} {m : Nat} {f i n : Int}

/-! ## Scaling by powers of two -/

namespace Binary64

theorem storedValue_mantissa (hi : |i| ≤ 2 ^ 53) (hmin : -1074 ≤ f)
    (hle : |(i : ℚ) * 2 ^ f| ≤ 2 ^ 1024) : storedValue (i * 2 ^ f) = i * 2 ^ f := by
  have hnatural {k : ℕ} (hk : |(k : ℤ)| ≤ 2 ^ 53) (hkle : |(k : ℚ) * 2 ^ f| ≤ 2 ^ 1024) :
      storedValue (k * 2 ^ f) = k * 2 ^ f := by
    have hnonneg : (0 : ℚ) ≤ k * 2 ^ f := mul_nonneg k.cast_nonneg (zpow_nonneg zero_le_two f)
    rw [Nat.abs_cast] at hk
    rw [storedValue_of_nonneg hnonneg]
    exact stored_mantissa (by exact_mod_cast hk) hmin (abs_of_nonneg hnonneg ▸ hkle)
  obtain ⟨k, rfl | rfl⟩ := i.eq_nat_or_neg
  · rw [Int.cast_natCast] at hle ⊢
    exact hnatural hi hle
  · rw [Int.cast_neg, Int.cast_natCast, neg_mul, abs_neg] at hle
    rw [abs_neg] at hi
    rw [Int.cast_neg, Int.cast_natCast, neg_mul, storedValue_neg, hnatural hi hle]

/-- A finite number is a mantissa at an exponent in range. -/
theorem exists_mantissa (ha : a.isFinite = true) :
    ∃ i e : ℤ, |i| ≤ 2 ^ 53 ∧ -1074 ≤ e ∧ valueOf a = i * 2 ^ e := by
  have hcanonical := isCanonical_unpack a.toModel
  unfold valueOf
  rcases zero_or_finite (x := a.toModel.unpack) ha with ⟨s, hs⟩ | ⟨s, m, e, hm, hs⟩
  · rw [hs]
    exact ⟨0, 0, by decide, by decide, by norm_num [value]⟩
  · rw [hs] at hcanonical ⊢
    have hsize : |(m : ℤ)| ≤ 2 ^ 53 := by
      rw [Nat.abs_cast]
      exact_mod_cast hcanonical.lt.le
    cases s
    · refine ⟨-m, e, by rwa [abs_neg], hcanonical.minExponent_le, ?_⟩
      rw [Int.cast_neg, Int.cast_natCast, neg_mul]
      rfl
    · exact ⟨m, e, hsize, hcanonical.minExponent_le, by rw [Int.cast_natCast]; rfl⟩

/-- An integer up to `2 ^ 53` in magnitude is a number itself. -/
theorem valueOf_ofInt_of_abs_le (h : |n| ≤ 2 ^ 53) :
    (Float.ofInt n).isFinite = true ∧ valueOf (Float.ofInt n) = n := by
  obtain ⟨hlow, hhigh⟩ := abs_le.1 h
  refine ⟨isFinite_ofInt (by omega), ?_⟩
  cases n with
  | ofNat k => exact valueOf_ofInt ⟨Int.natCast_nonneg k, hhigh⟩
  | negSucc k =>
    have hk : k + 1 ≤ 2 ^ 53 := by omega
    change valueOf (-Float.ofNat (k + 1)) = _
    rw [valueOf_neg, valueOf_ofNat hk, Int.cast_negSucc]

end Binary64

/-- The integer nearest to a number of moderate size. -/
theorem exists_roundHalfUp_of_abs_le (ha : a.isFinite = true) (h : |valueOf a| ≤ 2 ^ 53) :
    ∃ n, roundHalfUp a = .ok n ∧ NearestAway (valueOf a) n := by
  obtain ⟨hlow, hhigh⟩ := abs_le.1 h
  obtain hnonneg | hneg := le_total 0 (valueOf a)
  · exact ⟨_, roundHalfUp_eq ha hnonneg hhigh, nearestAway_floor hnonneg⟩
  · have hopposite := roundHalfUp_neg a
    have hnonneg : 0 ≤ -valueOf a := neg_nonneg.2 hneg
    have hround := roundHalfUp_eq ((isFinite_neg_eq a).trans ha)
      (by rwa [valueOf_neg]) (by rw [valueOf_neg]; linarith)
    rw [hopposite, valueOf_neg] at hround
    cases hresult : roundHalfUp a with
    | error e => rw [hresult] at hround; cases hround
    | ok n =>
      rw [hresult] at hround
      have hn : -n = ⌊-valueOf a + 1 / 2⌋ := Except.ok.inj hround
      have hnearest := (nearestAway_floor hnonneg).neg
      rw [neg_neg, ← hn, neg_neg] at hnearest
      exact ⟨n, rfl, hnearest⟩

/-! ## Millimetres and dots -/

theorem valueOf_mul_dotScale (ha : a.isFinite = true) (h : |8 * valueOf a| ≤ 2 ^ 1024) :
    valueOf (a * dotScale) = 8 * valueOf a := by
  obtain ⟨i, e, hi, hmin, hvalue⟩ := exists_mantissa ha
  have hscaled : valueOf a * 8 = i * 2 ^ (e + 3) := by
    rw [hvalue, zpow_add₀ (by norm_num)]
    ring
  rw [mul_comm, hscaled] at h
  rw [valueOf_mul ha rfl, valueOf_dotScale, mul_comm 8, hscaled,
    storedValue_mantissa hi (by omega) h]

theorem valueOf_dotsToMillimeters (h : |n| ≤ 2 ^ 53) :
    valueOf (dotsToMillimeters (Float.ofInt n)) = n / 8 := by
  obtain ⟨hfinite, hvalue⟩ := valueOf_ofInt_of_abs_le h
  have hscaled : (n : ℚ) / 8 = n * 2 ^ (-3 : ℤ) := by
    rw [div_eq_mul_inv]
    norm_num
  have hsize : |(n : ℚ)| ≤ 2 ^ 53 := by exact_mod_cast h
  have hlarge : |(n : ℚ) * 2 ^ (-3 : ℤ)| ≤ 2 ^ 1024 := by
    have hpower : (2 : ℚ) ^ 53 ≤ 2 ^ 1024 := pow_le_pow_right₀ (by norm_num) (by norm_num)
    rw [← hscaled, abs_div]
    refine le_trans (div_le_self (abs_nonneg _) ?_) (hsize.trans hpower)
    norm_num
  rw [dotsToMillimeters, valueOf_div hfinite rfl (by rw [valueOf_dotScale]; norm_num),
    valueOf_dotScale, hvalue, hscaled, storedValue_mantissa h (by norm_num) hlarge]

theorem isFinite_dotsToMillimeters (a : Float) : (dotsToMillimeters a).isFinite = a.isFinite :=
  isFinite_div_eq unpack_dotScale (by decide)

theorem exists_millimetersToDots (ha : a.isFinite = true) (h : |8 * valueOf a| ≤ 2 ^ 53) :
    ∃ n, millimetersToDots a = .ok n ∧ NearestAway (8 * valueOf a) n := by
  have hlarge : (2 : ℚ) ^ 53 < 2 ^ 1024 := pow_lt_pow_right₀ (by norm_num) (by norm_num)
  have hvalue := valueOf_mul_dotScale ha (h.trans hlarge.le)
  rw [← hvalue] at h ⊢
  have hfinite := isFinite_of_abs_valueOf_lt (mul_ne_notANumber ha rfl) (h.trans_lt hlarge)
  exact exists_roundHalfUp_of_abs_le hfinite h

/-- Whole dots have the same quotient as integers. -/
theorem integerQuotient_dots (h : |n| ≤ 2 ^ 53) :
    integerQuotient n dotsPerMillimeter = .ok (dotsToMillimeters (Float.ofInt n)) := by
  obtain rfl | hne := eq_or_ne n 0
  · rfl
  have hmm : (dotsToMillimeters (Float.ofInt n)).isFinite = true :=
    (isFinite_dotsToMillimeters _).trans (valueOf_ofInt_of_abs_le h).1
  have hmillimeters := valueOf_dotsToMillimeters h
  have height : (n : ℚ) / (dotsPerMillimeter : ℤ) = n / 8 := by norm_num [dotsPerMillimeter]
  have hsmall : |(n : ℚ) / 8| ≤ 2 ^ 53 := by
    have hsize : |(n : ℚ)| ≤ 2 ^ 53 := by exact_mod_cast h
    rw [abs_div]
    exact (div_le_self (abs_nonneg _) (by norm_num)).trans hsize
  obtain ⟨q, hq, hfinite, hvalue⟩ :=
    exists_integerQuotient (m := n) (n := dotsPerMillimeter) (by decide) (height ▸ hsmall)
  rw [height, ← hmillimeters, storedValue_valueOf hmm] at hvalue
  have hzero : valueOf q ≠ 0 := by
    rw [hvalue, hmillimeters]
    exact div_ne_zero (Int.cast_ne_zero.2 hne) (by norm_num)
  rw [hq, eq_of_valueOf_eq hfinite hmm hvalue hzero]

/-- Whole dots come back from millimetres, and millimetres from dots within half a dot. -/
theorem millimeters_dots_roundTrip :
    (∀ n : Int, |n| ≤ 2 ^ 53 →
      integerQuotient n dotsPerMillimeter = .ok (dotsToMillimeters (Float.ofInt n)) ∧
        millimetersToDots (dotsToMillimeters (Float.ofInt n)) = .ok n) ∧
      ∀ mm : Float, mm.isFinite = true → |8 * valueOf mm| ≤ 2 ^ 52 →
        ∃ n, millimetersToDots mm = .ok n ∧
          |valueOf (dotsToMillimeters (Float.ofInt n)) - valueOf mm| ≤ 1 / 16 := by
  constructor
  · intro n hn
    obtain ⟨hfinite, -⟩ := valueOf_ofInt_of_abs_le hn
    have hvalue := valueOf_dotsToMillimeters hn
    have hback : 8 * valueOf (dotsToMillimeters (Float.ofInt n)) = n := by
      rw [hvalue]
      ring
    obtain ⟨i, hi, hnearest⟩ := exists_millimetersToDots
      ((isFinite_dotsToMillimeters _).trans hfinite) (by rw [hback]; exact_mod_cast hn)
    rw [hback] at hnearest
    exact ⟨integerQuotient_dots hn, hi.trans (congrArg _ hnearest.eq_of_intCast)⟩
  · intro mm hmm h
    obtain ⟨n, hn, hnearest⟩ := exists_millimetersToDots hmm (h.trans (by norm_num))
    have hnear := hnearest.abs_sub_le
    have hsize : |n| ≤ 2 ^ 53 := by
      have hcast : |(n : ℚ)| ≤ 2 ^ 53 := by
        rw [abs_le] at h hnear ⊢
        constructor <;> linarith
      exact_mod_cast hcast
    refine ⟨n, hn, ?_⟩
    rw [valueOf_dotsToMillimeters hsize]
    rw [abs_le] at hnear ⊢
    constructor <;> linarith

/-- Half a dot off: a sixteenth of a millimetre becomes a whole dot, and two to the fifty-third dots
are still exact. -/
theorem sixteenth_becomes_dot : millimetersToDots (dotsToMillimeters (Float.ofInt (2 ^ 53))) =
    .ok (2 ^ 53) ∧ |8 * valueOf 0.0625| ≤ 2 ^ 52 ∧ ∃ n, millimetersToDots 0.0625 = .ok n ∧
      |valueOf (dotsToMillimeters (Float.ofInt n)) - valueOf 0.0625| ≤ 1 / 16 := by
  have hvalue : valueOf 0.0625 = 1 / 16 := by
    have hunpack : (0.0625 : Float).toModel.unpack =
        .finite .positive (2 ^ 52) (-56) (by decide) := by
      rfl
    rw [valueOf, hunpack, value, signed]
    norm_num
  have hsize : |8 * valueOf 0.0625| ≤ 2 ^ 52 := by
    rw [hvalue]
    norm_num
  exact ⟨(millimeters_dots_roundTrip.1 _ (by decide)).2, hsize,
    millimeters_dots_roundTrip.2 0.0625 rfl hsize⟩

end ThermalLabel
