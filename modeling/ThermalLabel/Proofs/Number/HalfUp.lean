import Mathlib
import ThermalLabel.Proofs.Number.Products
import ThermalLabel.Proofs.Number.Shortest
/-!
# Rounding half up

A number up to `2 ^ 53` that is not negative is rounded to the integer nearest to it, the larger one
of two, although it is the shortest decimal that is rounded. Integers in that range are numbers
themselves.
-/

namespace ThermalLabel

open Float.Model Float.Model.UnpackedFloat

namespace Binary64

variable {a b : Float} {v w : ℚ}

/-! ## Mantissas -/

/-- A mantissa that the format has room for is stored as it is at every exponent in range. -/
theorem stored_mantissa {m : Nat} {f : Int} (hm : m ≤ 2 ^ 53) (hmin : -1074 ≤ f)
    (hle : (m : ℚ) * 2 ^ f ≤ 2 ^ 1024) : stored (m * 2 ^ f) = m * 2 ^ f := by
  obtain rfl | hpos := Nat.eq_zero_or_pos m
  · rw [Nat.cast_zero, zero_mul, stored_zero]
  have hgrid {k : ℕ} {g : ℤ} (hk : 0 < k) (hlt : k < 2 ^ 53) (hg : -1074 ≤ g) :
      gridExponent ((k : ℚ) * 2 ^ g) ≤ g := by
    have hlog := log2_le_of_lt hlt
    rw [gridExponent, log_magnitude hk]
    omega
  obtain hlt | rfl := hm.lt_or_eq
  · exact stored_of_gridExponent_le (hgrid hpos hlt hmin) hle
  · have hnext : ((2 ^ 53 : ℕ) : ℚ) * 2 ^ f = (2 ^ 52 : ℕ) * 2 ^ (f + 1) := by
      rw [zpow_add_one₀ (by norm_num)]
      push_cast
      ring
    rw [hnext] at hle ⊢
    exact stored_of_gridExponent_le (hgrid (by decide) (by decide) (by omega)) hle

theorem mantissa_le {m : Nat} {f : Int} (hm : m ≤ 2 ^ 53) (hmax : f ≤ 971) :
    (m : ℚ) * 2 ^ f ≤ 2 ^ 1024 := by
  have hm' : (m : ℚ) ≤ 2 ^ (53 : ℤ) := by exact_mod_cast hm
  have hle : (2 : ℚ) ^ (53 + f) ≤ 2 ^ (1024 : ℤ) := zpow_le_zpow_right₀ (by norm_num) (by omega)
  rw [zpow_add₀ (by norm_num), zpow_ofNat 2 1024] at hle
  exact (mul_le_mul_of_nonneg_right hm' (by positivity)).trans hle

/-! ## Integers -/

theorem fullMantissa_magnitude {n : Nat} (h : n < 2 ^ 53) :
    (fullMantissa n : ℚ) * 2 ^ ((n.log2 : ℤ) - 52) = n := by
  have hhalf := fullMantissa_half h
  have hexponent : ((n.log2 : ℤ) - 52) = (n.log2 : ℤ) - 53 + 1 := by ring
  rw [hexponent, zpow_add_one₀ (by norm_num), ← mul_assoc, hhalf]
  ring

theorem stored_natCast {n : Nat} (h : n ≤ 2 ^ 53) : stored n = n := by
  have hstored := stored_mantissa (f := 0) h (by decide) (mantissa_le h (by decide))
  rwa [zpow_zero, mul_one] at hstored

theorem stored_le_natCast (hv : 0 ≤ v) {n : Nat} (hn : n ≤ 2 ^ 53) (h : v ≤ n) : stored v ≤ n :=
  (stored_mono hv h).trans_eq (stored_natCast hn)

theorem valueOf_ofNat {n : Nat} (h : n ≤ 2 ^ 53) : valueOf (Float.ofNat n) = n := by
  obtain hlt | rfl := h.lt_or_eq
  · obtain rfl | hpos := Nat.eq_zero_or_pos n
    · rfl
    · rw [valueOf, unpack_ofNat hpos hlt]
      exact fullMantissa_magnitude hlt
  · have hunpack : (Float.ofNat (2 ^ 53)).toModel.unpack =
        .finite .positive (2 ^ 52) 1 (by decide) := by
      rfl
    rw [valueOf, hunpack, value, signed]
    norm_num

section

variable {n : Int}

theorem isFinite_ofInt_of_mem (h : n ∈ Set.Icc 0 (2 ^ 53)) : (Float.ofInt n).isFinite = true := by
  obtain ⟨hnonneg, hle⟩ := h
  exact isFinite_ofInt (by omega)

theorem ofInteger_of_mem (h : n ∈ Set.Icc 0 (2 ^ 53)) : ofInteger n = .ok (Float.ofInt n) := by
  rw [ofInteger, if_pos]
  rw [isFinite_ofFloat]
  exact isFinite_ofInt_of_mem h

theorem valueOf_ofInt (h : n ∈ Set.Icc 0 (2 ^ 53)) : valueOf (Float.ofInt n) = n := by
  obtain ⟨hnonneg, hle⟩ := h
  obtain ⟨k, rfl⟩ := Int.eq_ofNat_of_zero_le hnonneg
  exact valueOf_ofNat (by omega)

end

/-! ## Numbers that stay finite -/

theorem isFinite_of_abs_valueOf_lt (hn : a.toModel.unpack ≠ .notANumber)
    (h : |valueOf a| < 2 ^ 1024) : a.isFinite = true := by
  rcases infinity_or_isFinite hn with ⟨s, hs⟩ | hfinite
  · have hlarge : |valueOf a| = 2 ^ 1024 := by
      rw [valueOf, hs]
      cases s
      · rw [value, signed, abs_neg, abs_of_nonneg (by positivity)]
      · rw [value, signed, abs_of_nonneg (by positivity)]
    exact absurd hlarge h.ne
  · exact hfinite

/-- What a finite number that is not negative is in memory. -/
theorem zero_or_canonical (ha : a.isFinite = true) (h : 0 ≤ valueOf a) :
    (∃ s, a.toModel.unpack = .zero s ∧ valueOf a = 0) ∨ ∃ m e, ∃ hc : Canonical m e,
      a.toModel.unpack = .finite .positive m e hc.pos ∧ valueOf a = m * 2 ^ e := by
  have hcanonical := isCanonical_unpack a.toModel
  unfold valueOf at h ⊢
  rcases zero_or_finite (x := a.toModel.unpack) ha with ⟨s, hs⟩ | ⟨s, m, e, hm, hs⟩
  · exact .inl ⟨s, hs, by rw [hs]; rfl⟩
  · rw [hs] at hcanonical h ⊢
    cases s
    · exact absurd h (not_le.2 (neg_lt_zero.2 (magnitude_pos hm e)))
    · exact .inr ⟨m, e, hcanonical, rfl, rfl⟩

theorem mul_ne_notANumber (ha : a.isFinite = true) (hb : b.isFinite = true) :
    (a * b).toModel.unpack ≠ .notANumber := by
  change (Float.Model.pack (UnpackedFloat.mul Format.binary64 a.toModel.unpack
    b.toModel.unpack)).unpack ≠ .notANumber
  change a.toModel.unpack.isFinite = true at ha
  change b.toModel.unpack.isFinite = true at hb
  apply unpack_pack_ne_notANumber
  rcases zero_or_finite ha with ⟨s, hs⟩ | ⟨s, m, e, hm, hs⟩
  · rcases zero_or_finite hb with ⟨t, ht⟩ | ⟨t, n, f, hn, ht⟩ <;> rw [hs, ht] <;> rfl
  · rcases zero_or_finite hb with ⟨t, ht⟩ | ⟨t, n, f, hn, ht⟩
    · rw [hs, ht]
      rfl
    · rw [hs, ht]
      exact isFinite_rounded _ _ _ _

/-! ## Quotients of integers -/

theorem value_unpackedOfInt (n : Int) :
    (unpackedOfInt n).isFinite = true ∧ value (unpackedOfInt n) = n := by
  unfold unpackedOfInt
  split
  · refine ⟨rfl, ?_⟩
    rw [value, zpow_zero, mul_one, Nat.cast_natAbs]
    split
    · rename_i hneg
      rw [signed, abs_of_neg hneg, Int.cast_neg, neg_neg]
    · rename_i hnonneg
      rw [signed, abs_of_nonneg (not_lt.1 hnonneg)]
  · obtain rfl : n = 0 := by omega
    exact ⟨rfl, Int.cast_zero.symm⟩

theorem isFinite_div_unpackedOfInt {n : Int} (hn : n ≠ 0) (m : Int) :
    (UnpackedFloat.div .binary64 (unpackedOfInt m) (unpackedOfInt n)).isFinite = true := by
  have hn' : 0 < n.natAbs := Int.natAbs_pos.2 hn
  unfold unpackedOfInt
  rw [dif_pos hn']
  split
  · exact isFinite_rounded _ _ _ _
  · rfl

theorem exists_integerQuotient {m n : Int} (hn : n ≠ 0) (h : |(m : ℚ) / n| ≤ 2 ^ 53) :
    ∃ q, integerQuotient m n = .ok q ∧ q.isFinite = true ∧
      valueOf q = storedValue ((m : ℚ) / n) := by
  obtain ⟨hm, hvalue⟩ := value_unpackedOfInt m
  obtain ⟨hn', hvalue'⟩ := value_unpackedOfInt n
  obtain ⟨q, hq⟩ : ∃ q, Float.ofModel (.pack (UnpackedFloat.div .binary64 (unpackedOfInt m)
    (unpackedOfInt n))) = q := ⟨_, rfl⟩
  have hquotient : valueOf q = storedValue ((m : ℚ) / n) := by
    have hstored := value_div hm hn' (by rw [hvalue']; exact Int.cast_ne_zero.2 hn)
    rw [hvalue, hvalue'] at hstored
    rw [← hq]
    exact hstored
  have hfinite : q.isFinite = true := by
    apply isFinite_of_abs_valueOf_lt
    · rw [← hq]
      exact unpack_pack_ne_notANumber (isFinite_div_unpackedOfInt hn m)
    · have hle : stored |(m : ℚ) / n| ≤ (2 ^ 53 : ℕ) :=
        stored_le_natCast (abs_nonneg _) le_rfl (by exact_mod_cast h)
      have hlarge : ((2 ^ 53 : ℕ) : ℚ) < 2 ^ 1024 := by
        rw [Nat.cast_pow, Nat.cast_ofNat]
        exact pow_lt_pow_right₀ (by norm_num) (by norm_num)
      rw [hquotient, abs_storedValue]
      exact lt_of_le_of_lt hle hlarge
  refine ⟨q, ?_, hfinite, hquotient⟩
  rw [integerQuotient, if_neg hn]
  simp only [hq]
  rw [if_pos ((isFinite_ofFloat q).trans hfinite)]

end Binary64

open Binary64

theorem Decimal.abs_nearestInt (d : Decimal) : |d.nearestInt| = d.wholeMagnitude := by
  unfold nearestInt
  split
  · rw [abs_neg, Nat.abs_cast]
  · rw [Nat.abs_cast]

theorem Decimal.round?_eq_ite (d : Decimal) : d.round? =
    if |d.nearestInt| < 10 ^ 28 then .ok d.nearestInt else .error .roundTooManyDigits := by
  have hsize : d.wholeMagnitude < Nat.pow 10 maxRoundedDigits ↔ |d.nearestInt| < 10 ^ 28 := by
    rw [d.abs_nearestInt]
    exact_mod_cast Iff.rfl
  unfold round?
  simp only [hsize]

theorem Decimal.round?_eq {d : Decimal} (hd : d.negative = false)
    (h : ⌊d.magnitude + 1 / 2⌋ < 10 ^ 28) : d.round? = .ok ⌊d.magnitude + 1 / 2⌋ := by
  have hnearest : d.nearestInt = ⌊d.magnitude + 1 / 2⌋ := by
    rw [nearestInt, hd, ← d.wholeMagnitude_eq]
    rfl
  rw [d.round?_eq_ite, if_pos (by rwa [d.abs_nearestInt, d.wholeMagnitude_eq]), hnearest]

theorem roundHalfUp_of_zero {x : Float} {s : Sign} (hx : x.toModel.unpack = .zero s) :
    roundHalfUp x = .ok 0 := by
  unfold roundHalfUp ExactValue.ofFloat
  rw [hx]
  cases s <;> decide

theorem roundHalfUp_of_positive {x : Float} {m : Nat} {e : Int} {hm : 0 < m}
    (hx : x.toModel.unpack = .finite .positive m e hm) :
    roundHalfUp x = (shortestDecimal false m e).round? := by
  unfold roundHalfUp ExactValue.ofFloat
  rw [hx]
  rfl

/-- The integer nearest to a number, the larger one of two. -/
theorem roundHalfUp_eq {x : Float} (hx : x.isFinite = true) (hnonneg : 0 ≤ valueOf x)
    (hle : valueOf x ≤ 2 ^ 53) : roundHalfUp x = .ok ⌊valueOf x + 1 / 2⌋ := by
  have hsmall : ⌊valueOf x + 1 / 2⌋ < 10 ^ 28 := by
    rw [Int.floor_lt]
    push_cast
    linarith
  rcases zero_or_canonical hx hnonneg with ⟨s, hs, hvalue⟩ | ⟨m, e, hcanonical, hs, hvalue⟩
  · have hfloor : ⌊(0 : ℚ) + 1 / 2⌋ = 0 := by
      rw [Int.floor_eq_iff]
      norm_num
    rw [roundHalfUp_of_zero hs, hvalue, hfloor]
  · rw [hvalue] at hle hsmall ⊢
    have hfloor := floor_shortestDecimal false hcanonical hle
    have hround := Decimal.round?_eq (d := shortestDecimal false m e)
      (by rw [shortestDecimal, if_neg hcanonical.pos.ne']) (hfloor.trans_lt hsmall)
    rw [roundHalfUp_of_positive hs, hround, hfloor]

end ThermalLabel
