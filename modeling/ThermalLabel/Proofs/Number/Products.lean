import Mathlib
import ThermalLabel.Proofs.Number.Difference
/-!
# Products and quotients of binary numbers

The product and the quotient of two finite numbers are the exact ones, rounded. A quotient of
integers is rounded once, however many digits they have.
-/

namespace ThermalLabel.Binary64

open Float.Model Float.Model.UnpackedFloat

variable {x y : UnpackedFloat} {m n : Nat} {e f : Int} {v : ℚ}

/-! ## What is left by a division -/

theorem halves_add_natCast (n : Nat) (v : ℚ) : halves (n + v) = 4 * n + halves v := by
  have hdouble : 2 * ((n : ℚ) + v) = 2 * v + ((2 * n : ℤ) : ℚ) := by push_cast; ring
  rw [halves, halves, hdouble, Int.floor_add_intCast, Int.ceil_add_intCast]
  ring

theorem halves_of_pos_of_lt_half (hpos : 0 < v) (hlt : 2 * v < 1) : halves v = 1 := by
  have hfloor : ⌊2 * v⌋ = 0 := by
    rw [Int.floor_eq_iff]
    constructor <;> push_cast <;> linarith
  have hceil : ⌈2 * v⌉ = 1 := by
    rw [Int.ceil_eq_iff]
    constructor <;> push_cast <;> linarith
  rw [halves, hfloor, hceil]
  rfl

theorem halves_of_half_lt_of_lt_one (hgt : 1 < 2 * v) (hlt : v < 1) : halves v = 3 := by
  have hfloor : ⌊2 * v⌋ = 1 := by
    rw [Int.floor_eq_iff]
    constructor <;> push_cast <;> linarith
  have hceil : ⌈2 * v⌉ = 2 := by
    rw [Int.ceil_eq_iff]
    constructor <;> push_cast <;> linarith
  rw [halves, hfloor, hceil]
  rfl

theorem halves_of_eq_half (h : 2 * v = 1) : halves v = 2 := by
  rw [halves, h, Int.floor_one, Int.ceil_one]
  rfl

/-- What a remainder says of the digits left out. -/
theorem code_remainder {r : Nat} (hlt : r < n) (k : Nat) :
    code (ExtendedMantissa.ofMantissaAndAccuracy k (accuracyOfFraction r n)) =
      4 * k + halves ((r : ℚ) / n) := by
  have hnq : (0 : ℚ) < n := Nat.cast_pos.2 (by omega)
  have hlt' : (r : ℚ) / n < 1 := (div_lt_one hnq).2 (Nat.cast_lt.2 hlt)
  rw [accuracyOfFraction]
  obtain rfl | hpos := Nat.eq_zero_or_pos r
  · have hzero := halves_intCast 0
    rw [Int.cast_zero] at hzero
    rw [if_pos rfl, Nat.cast_zero, zero_div, hzero]
    simp [ExtendedMantissa.ofMantissaAndAccuracy, code]
  · have hposq : (0 : ℚ) < r / n := div_pos (Nat.cast_pos.2 hpos) hnq
    have hdouble : 2 * ((r : ℚ) / n) = ((2 * r : Nat) : ℚ) / n := by push_cast; ring
    rw [if_neg hpos.ne']
    rcases lt_trichotomy (2 * r) n with h | h | h
    · have hhalf : 2 * ((r : ℚ) / n) < 1 := by
        rw [hdouble]
        exact (div_lt_one hnq).2 (Nat.cast_lt.2 h)
      rw [compare_lt_iff_lt.2 h, halves_of_pos_of_lt_half hposq hhalf]
      simp [ExtendedMantissa.ofMantissaAndAccuracy, code]
    · have hhalf : 2 * ((r : ℚ) / n) = 1 := by
        rw [hdouble, h]
        exact div_self hnq.ne'
      rw [compare_eq_iff_eq.2 h, halves_of_eq_half hhalf]
      simp [ExtendedMantissa.ofMantissaAndAccuracy, code]
    · have hhalf : 1 < 2 * ((r : ℚ) / n) := by
        rw [hdouble]
        exact (one_lt_div hnq).2 (Nat.cast_lt.2 h)
      rw [compare_gt_iff_gt.2 h, halves_of_half_lt_of_lt_one hhalf hlt']
      simp only [ExtendedMantissa.ofMantissaAndAccuracy, code, Bool.toNat_true]
      ring

theorem code_fraction (hn : 0 < n) (m : Nat) :
    code (ExtendedMantissa.ofMantissaAndAccuracy (m / n) (accuracyOfFraction (m % n) n)) =
      halves ((m : ℚ) / n) := by
  have hnq : (0 : ℚ) < n := Nat.cast_pos.2 hn
  have hsplit : (m : ℚ) / n = ((m / n : Nat) : ℚ) + ((m % n : Nat) : ℚ) / n := by
    have hm : (m : ℚ) = n * ((m / n : Nat) : ℚ) + ((m % n : Nat) : ℚ) := by
      exact_mod_cast (Nat.div_add_mod m n).symm
    field_simp
    exact hm
  rw [code_remainder (Nat.mod_lt m hn), hsplit, halves_add_natCast]

/-! ## Finite numbers -/

theorem storedValue_signed_of_pos (hv : 0 < v) (s : Sign) :
    storedValue (signed s v) = signed s (stored v) := by
  cases s
  · exact storedValue_neg_of_pos hv
  · exact storedValue_of_nonneg hv.le

theorem signed_div_signed (s t : Sign) (v w : ℚ) :
    signed s v / signed t w = signed (s / t) (v / w) := by
  cases s <;> cases t
  · exact neg_div_neg_eq v w
  · exact neg_div w v
  · exact div_neg v
  · rfl

theorem signed_mul_signed (s t : Sign) (v w : ℚ) :
    signed s v * signed t w = signed (s * t) (v * w) := by
  cases s <;> cases t
  · exact neg_mul_neg v w
  · exact neg_mul v w
  · exact mul_neg v w
  · rfl

/-- A quotient has as many digits as its parts let expect, or one less. -/
theorem le_log_div (hm : 0 < m) (hn : 0 < n) (e f : Int) :
    (m.log2 + e : ℤ) - (n.log2 + f + 1) ≤ Int.log 2 ((m : ℚ) * 2 ^ e / (n * 2 ^ f)) := by
  have hpos : (0 : ℚ) < m * 2 ^ e / (n * 2 ^ f) := div_pos (magnitude_pos hm e) (magnitude_pos hn f)
  apply (Int.zpow_le_iff_le_log (b := 2) (by norm_num) hpos).1
  rw [le_div_iff₀ (magnitude_pos hn f)]
  have hlow : (2 : ℚ) ^ (m.log2 + e : ℤ) ≤ m * 2 ^ e := by
    have hle := Int.zpow_log_le_self (b := 2) (by norm_num) (magnitude_pos hm e)
    rw [log_magnitude hm] at hle
    exact_mod_cast hle
  have hhigh : (n : ℚ) * 2 ^ f ≤ 2 ^ (n.log2 + f + 1 : ℤ) := by
    have hlt := Int.lt_zpow_succ_log_self (b := 2) (by norm_num) ((n : ℚ) * 2 ^ f)
    rw [log_magnitude hn] at hlt
    exact_mod_cast hlt.le
  calc ((2 : ℕ) : ℚ) ^ ((m.log2 + e : ℤ) - (n.log2 + f + 1)) * (n * 2 ^ f)
      ≤ (2 : ℚ) ^ ((m.log2 + e : ℤ) - (n.log2 + f + 1)) * 2 ^ (n.log2 + f + 1 : ℤ) := by
        push_cast
        exact mul_le_mul_of_nonneg_left hhigh (by positivity)
    _ = 2 ^ (m.log2 + e : ℤ) := by
        rw [← zpow_add₀ (by norm_num), sub_add_cancel]
    _ ≤ m * 2 ^ e := hlow

theorem value_div_finite (hm : 0 < m) (hn : 0 < n) (s t : Sign) :
    value (Float.Model.pack (UnpackedFloat.div Format.binary64 (.finite s m e hm)
      (.finite t n f hn))).unpack = signed (s / t) (stored (m * 2 ^ e / (n * 2 ^ f))) := by
  obtain ⟨g, hg⟩ : ∃ g, min (e - f)
      (Format.binary64.targetExponent (totalExponent m e - totalExponent n f)) = g := ⟨_, rfl⟩
  obtain ⟨a, ha⟩ : ∃ a, (e - f - g).toNat = a := ⟨_, rfl⟩
  have hcore : divCore Format.binary64 m e n f =
      (m * 2 ^ a / n, g, accuracyOfFraction ((m * 2 ^ a) % n) n) := by
    simp only [divCore, hg, ha, Nat.shiftLeft_eq]
  have hnq : (0 : ℚ) < n := Nat.cast_pos.2 hn
  have hpos : (0 : ℚ) < m * 2 ^ e / (n * 2 ^ f) := div_pos (magnitude_pos hm e) (magnitude_pos hn f)
  have hquotient : (m : ℚ) * 2 ^ e / (n * 2 ^ f) / 2 ^ g = ((m * 2 ^ a : Nat) : ℚ) / n := by
    have hexponent : e = a + g + f := by omega
    rw [hexponent, zpow_add₀ (by norm_num), zpow_add₀ (by norm_num), zpow_natCast]
    push_cast
    field_simp
  have hlog := le_log_div hm hn e f
  have hgrid : g ≤ gridExponent ((m : ℚ) * 2 ^ e / (n * 2 ^ f)) := by
    simp only [Format.targetExponent, Format.minExponent, Format.mantissaBits, totalExponent] at hg
    unfold gridExponent
    omega
  simp only [UnpackedFloat.div, hcore]
  apply value_roundWithAccuracy hpos hgrid
  rw [hquotient]
  exact code_fraction hn _

theorem value_mul_finite (hx : Canonical m e) (hy : Canonical n f) (s t : Sign) :
    value (Float.Model.pack (UnpackedFloat.mul Format.binary64 (.finite s m e hx.pos)
      (.finite t n f hy.pos))).unpack = signed (s * t) (stored (m * 2 ^ e * (n * 2 ^ f))) := by
  have hproduct : (m : ℚ) * 2 ^ e * (n * 2 ^ f) = ((m * n : Nat) : ℚ) * 2 ^ (e + f) := by
    rw [zpow_add₀ (by norm_num)]
    push_cast
    ring
  have hmin := hx.minExponent_le
  have hmin' := hy.minExponent_le
  have hlength : 52 ≤ (m * n).log2 ∨ e + f ≤ -1074 := by
    have hmn : m * n ≠ 0 := (Nat.mul_pos hx.pos hy.pos).ne'
    rw [Nat.le_log2 hmn]
    rcases hx.full with hm | he
    · exact .inl (hm.trans (Nat.le_mul_of_pos_right m hy.pos))
    · rcases hy.full with hn | hf
      · exact .inl (hn.trans (Nat.le_mul_of_pos_left n hx.pos))
      · exact .inr (by omega)
  have hgrid : e + f ≤ gridExponent (((m * n : Nat) : ℚ) * 2 ^ (e + f)) := by
    rw [gridExponent, log_magnitude (Nat.mul_pos hx.pos hy.pos)]
    omega
  rw [hproduct]
  exact value_roundWithAccuracy_exact (Nat.mul_pos hx.pos hy.pos) hgrid _

theorem value_div (hxf : x.isFinite = true) (hyf : y.isFinite = true) (hy : value y ≠ 0) :
    value (Float.Model.pack (UnpackedFloat.div Format.binary64 x y)).unpack =
      storedValue (value x / value y) := by
  rcases zero_or_finite hyf with ⟨t, rfl⟩ | ⟨t, n, f, hn, rfl⟩
  · exact absurd rfl hy
  · rcases zero_or_finite hxf with ⟨s, rfl⟩ | ⟨s, m, e, hm, rfl⟩
    · have hquotient : value (.zero s) / value (.finite t n f hn) = 0 := zero_div _
      rw [hquotient, storedValue_of_nonneg le_rfl, stored_zero]
      exact value_pack_zero _
    · rw [value_div_finite hm hn, value, value, signed_div_signed,
        storedValue_signed_of_pos (div_pos (magnitude_pos hm e) (magnitude_pos hn f))]

theorem value_mul (hx : IsCanonical x) (hy : IsCanonical y) (hxf : x.isFinite = true)
    (hyf : y.isFinite = true) :
    value (Float.Model.pack (UnpackedFloat.mul Format.binary64 x y)).unpack =
      storedValue (value x * value y) := by
  have hzero : storedValue 0 = 0 := (storedValue_of_nonneg le_rfl).trans stored_zero
  rcases zero_or_finite hxf with ⟨s, rfl⟩ | ⟨s, m, e, hm, rfl⟩
  · have hproduct : value (.zero s) * value y = 0 := zero_mul _
    rw [hproduct, hzero]
    rcases zero_or_finite hyf with ⟨t, rfl⟩ | ⟨t, n, f, hn, rfl⟩
    · exact value_pack_zero _
    · exact value_pack_zero _
  · rcases zero_or_finite hyf with ⟨t, rfl⟩ | ⟨t, n, f, hn, rfl⟩
    · have hproduct : value (.finite s m e hm) * value (.zero t) = 0 := mul_zero _
      rw [hproduct, hzero]
      exact value_pack_zero _
    · rw [value_mul_finite hx hy, value, value, signed_mul_signed,
        storedValue_signed_of_pos (mul_pos (magnitude_pos hm e) (magnitude_pos hn f))]

/-! ## Numbers in memory -/

variable {a b : Float}

theorem valueOf_div (ha : a.isFinite = true) (hb : b.isFinite = true) (hb' : valueOf b ≠ 0) :
    valueOf (a / b) = storedValue (valueOf a / valueOf b) :=
  value_div ha hb hb'

theorem valueOf_mul (ha : a.isFinite = true) (hb : b.isFinite = true) :
    valueOf (a * b) = storedValue (valueOf a * valueOf b) :=
  value_mul (isCanonical_unpack _) (isCanonical_unpack _) ha hb

end ThermalLabel.Binary64
