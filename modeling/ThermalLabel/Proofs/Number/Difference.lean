import Mathlib
import ThermalLabel.Proofs.Number.Nearest
/-!
# Sums and differences of binary numbers

The difference of two finite numbers is the exact one, rounded, and so is their sum. As rounding
keeps the order, a number is computed to be no farther from a second one than from a third that lies
beyond it.
-/

namespace ThermalLabel.Binary64

open Float.Model Float.Model.UnpackedFloat

/-- A rational number as it is stored. -/
def storedValue (v : ℚ) : ℚ := if v < 0 then -stored (-v) else stored v

variable {x y : UnpackedFloat} {v : ℚ} {m : Nat} {e : Int}

theorem storedValue_of_nonneg (h : 0 ≤ v) : storedValue v = stored v := if_neg (not_lt.2 h)

theorem storedValue_neg_of_pos (h : 0 < v) : storedValue (-v) = -stored v := by
  rw [storedValue, if_pos (neg_lt_zero.2 h), neg_neg]

theorem stored_nonneg (h : 0 ≤ v) : 0 ≤ stored v := stored_zero.symm.trans_le (stored_mono le_rfl h)

theorem abs_storedValue (v : ℚ) : |storedValue v| = stored |v| := by
  obtain h | h := lt_or_ge v 0
  · rw [storedValue, if_pos h, abs_neg, abs_of_neg h,
      abs_of_nonneg (stored_nonneg (neg_nonneg.2 h.le))]
  · rw [storedValue_of_nonneg h, abs_of_nonneg h, abs_of_nonneg (stored_nonneg h)]

theorem storedValue_signed (h : Canonical m e) (s : Sign) :
    storedValue (signed s (m * 2 ^ e)) = signed s (m * 2 ^ e) := by
  cases s
  · exact (storedValue_neg_of_pos h.magnitude_pos).trans (congrArg _ (stored_of_canonical h))
  · exact (storedValue_of_nonneg h.magnitude_pos.le).trans (stored_of_canonical h)

theorem signed_neg (s : Sign) (v : ℚ) : signed (-s) v = -signed s v := by
  cases s
  · exact (neg_neg v).symm
  · rfl

/-! ## Subtraction -/

theorem value_normalize (m e : Int) :
    value (Float.Model.pack (UnpackedFloat.normalize Format.binary64 m e .positive)).unpack =
      storedValue (m * 2 ^ e) := by
  unfold UnpackedFloat.normalize
  rcases lt_trichotomy m 0 with h | rfl | h
  · obtain ⟨n, hn⟩ : ∃ n : Nat, m = -n := ⟨m.natAbs, by omega⟩
    subst hn
    have hpos : 0 < n := by omega
    have hmagnitude := magnitude_pos hpos e
    have hcast : ((-(n : ℤ) : ℤ) : ℚ) * 2 ^ e = -(n * 2 ^ e) := by push_cast; ring
    rw [compare_lt_iff_lt.2 h, hcast, storedValue_neg_of_pos hmagnitude]
    simp only [neg_neg, Int.toNat_natCast]
    exact value_round hpos .negative e
  · rw [compare_eq_iff_eq.2 rfl, Int.cast_zero, zero_mul, storedValue_of_nonneg le_rfl, stored_zero]
    exact value_pack_zero .positive
  · obtain ⟨n, hn⟩ : ∃ n : Nat, m = n := ⟨m.natAbs, by omega⟩
    subst hn
    have hpos : 0 < n := by omega
    have hmagnitude := magnitude_pos hpos e
    rw [compare_gt_iff_gt.2 h, Int.cast_natCast, storedValue_of_nonneg hmagnitude.le]
    simp only [Int.toNat_natCast]
    exact value_round hpos .positive e

theorem signed_natCast (s : Sign) (n : Nat) : signed s n = (s.apply n : ℤ) := by
  cases s
  · simp [signed, Sign.apply]
  · simp [signed, Sign.apply]

theorem signed_mul (s : Sign) (v w : ℚ) : signed s (v * w) = signed s v * w := by
  cases s
  · exact neg_mul_eq_neg_mul v w
  · rfl

/-- A number with its exponent lowered. -/
theorem signed_decreaseExponent {g : Int} (h : g ≤ e) (s : Sign) :
    signed s (m * 2 ^ e) = (s.apply (decreaseExponent m e g).1 : ℤ) * 2 ^ g := by
  obtain ⟨k, hk⟩ : ∃ k : Nat, e = g + k := ⟨(e - g).toNat, by omega⟩
  have hshift : (decreaseExponent m e g).1 = m * 2 ^ k := by
    have hamount : (e - g).toNat = k := by omega
    simp only [decreaseExponent, hamount, Nat.shiftLeft_eq]
  rw [hshift, ← signed_natCast, ← signed_mul, hk, zpow_add₀ (by norm_num), zpow_natCast]
  push_cast
  congr 1
  ring

theorem value_sub (hx : IsCanonical x) (hy : IsCanonical y) (hxf : x.isFinite = true)
    (hyf : y.isFinite = true) :
    value (Float.Model.pack (UnpackedFloat.sub Format.binary64 x y)).unpack =
      storedValue (value x - value y) := by
  rcases zero_or_finite hxf with ⟨s, rfl⟩ | ⟨s, m, e, hm, rfl⟩
  · rcases zero_or_finite hyf with ⟨t, rfl⟩ | ⟨t, n, f, hn, rfl⟩
    · have hzero : storedValue (value (.zero s) - value (.zero t)) = 0 := by
        rw [value, value, sub_zero, storedValue_of_nonneg le_rfl, stored_zero]
      rw [hzero]
      cases s <;> cases t <;> exact value_pack_zero _
    · have hy' : IsCanonical (.finite (-t) n f hn) := hy
      have hneg : value (.zero s) - value (.finite t n f hn) = signed (-t) (n * 2 ^ f) := by
        rw [signed_neg, value, value, zero_sub]
      rw [hneg, storedValue_signed hy']
      exact congrArg value hy'.unpack_pack
  · rcases zero_or_finite hyf with ⟨t, rfl⟩ | ⟨t, n, f, hn, rfl⟩
    · have hsame : value (.finite s m e hm) - value (.zero t) = signed s (m * 2 ^ e) := by
        rw [value, value, sub_zero]
      rw [hsame, storedValue_signed hx]
      exact congrArg value hx.unpack_pack
    · have hdifference : value (.finite s m e hm) - value (.finite t n f hn) =
          ((s.apply (decreaseExponent m e (min e f)).1 -
            t.apply (decreaseExponent n f (min e f)).1 : ℤ) : ℚ) * 2 ^ min e f := by
        rw [value, value, signed_decreaseExponent (min_le_left e f),
          signed_decreaseExponent (min_le_right e f), Int.cast_sub, sub_mul]
      rw [hdifference]
      exact value_normalize _ _

/-! ## Addition -/

/-- A sum is the difference to the negated number. -/
theorem add_eq_sub_neg (hxf : x.isFinite = true) (hyf : y.isFinite = true) :
    UnpackedFloat.add Format.binary64 x y = UnpackedFloat.sub Format.binary64 x y.neg := by
  rcases zero_or_finite hxf with ⟨s, rfl⟩ | ⟨s, m, e, hm, rfl⟩
  · rcases zero_or_finite hyf with ⟨t, rfl⟩ | ⟨t, n, f, hn, rfl⟩
    · cases s <;> cases t <;> rfl
    · cases t <;> rfl
  · rcases zero_or_finite hyf with ⟨t, rfl⟩ | ⟨t, n, f, hn, rfl⟩
    · rfl
    · have happly (k : ℤ) : (-t).apply k = -t.apply k := by
        cases t
        · exact (neg_neg k).symm
        · rfl
      simp only [UnpackedFloat.add, UnpackedFloat.sub, UnpackedFloat.neg, happly, sub_neg_eq_add]

theorem value_neg (y : UnpackedFloat) : value y.neg = -value y := by
  cases y with
  | notANumber => exact neg_zero.symm
  | zero s => exact neg_zero.symm
  | infinity s => exact signed_neg s _
  | finite s m e hm => exact signed_neg s _

theorem isFinite_negated (hyf : y.isFinite = true) : y.neg.isFinite = true := by
  cases y <;> exact hyf

theorem value_add (hx : IsCanonical x) (hy : IsCanonical y) (hxf : x.isFinite = true)
    (hyf : y.isFinite = true) :
    value (Float.Model.pack (UnpackedFloat.add Format.binary64 x y)).unpack =
      storedValue (value x + value y) := by
  have hneg : IsCanonical y.neg := by cases y <;> exact hy
  rw [add_eq_sub_neg hxf hyf, value_sub hx hneg hxf (isFinite_negated hyf), value_neg,
    sub_neg_eq_add]

/-! ## Numbers in memory -/

theorem isFinite_rounded (s : Sign) (m : Nat) (e : Int) (acc : Accuracy) :
    (roundWithAccuracy Format.binary64 s m e acc).isFinite = true := by
  obtain ⟨r, -, a, b, -, -, ⟨-, h⟩ | ⟨hpos, h⟩⟩ := roundWithAccuracy_cases s m e acc
  · rw [h]
    rfl
  · rw [h]
    rfl

theorem isFinite_round (s : Sign) (m : Nat) (e : Int) :
    (UnpackedFloat.round Format.binary64 s m e).isFinite = true :=
  isFinite_rounded s _ _ .exact

theorem isFinite_sub (hxf : x.isFinite = true) (hyf : y.isFinite = true) :
    (UnpackedFloat.sub Format.binary64 x y).isFinite = true := by
  rcases zero_or_finite hxf with ⟨s, rfl⟩ | ⟨s, m, e, hm, rfl⟩
  · rcases zero_or_finite hyf with ⟨t, rfl⟩ | ⟨t, n, f, hn, rfl⟩
    · cases s <;> cases t <;> rfl
    · rfl
  · rcases zero_or_finite hyf with ⟨t, rfl⟩ | ⟨t, n, f, hn, rfl⟩
    · rfl
    · simp only [UnpackedFloat.sub, UnpackedFloat.normalize]
      split
      · exact isFinite_round _ _ _
      · rfl
      · exact isFinite_round _ _ _

/-- A finite number may become infinite when it is stored, but still compares. -/
theorem unpack_pack_ne_notANumber (h : x.isFinite = true) :
    (Float.Model.pack x).unpack ≠ .notANumber := by
  have hfinite {y : UnpackedFloat} (hy : y.isFinite = true) : y ≠ .notANumber := by
    rintro rfl
    cases hy
  rcases zero_or_finite h with ⟨s, rfl⟩ | ⟨s, m, e, hm, rfl⟩
  · exact hfinite (isFinite_pack_zero s)
  · by_cases hmax : e ≤ 971
    · exact hfinite (isFinite_pack hm hmax)
    · rw [unpack_pack_of_large hm (not_le.1 hmax)]
      exact UnpackedFloat.noConfusion

theorem isCanonical_abs (h : IsCanonical x) : IsCanonical x.abs := by
  cases x <;> exact h

theorem value_abs (hx : IsCanonical x) : value x.abs = |value x| := by
  have hlarge : (0 : ℚ) ≤ 2 ^ 1024 := by positivity
  cases x with
  | notANumber => exact abs_zero.symm
  | zero s => exact abs_zero.symm
  | infinity s =>
    cases s
    · exact ((abs_neg _).trans (abs_of_nonneg hlarge)).symm
    · exact (abs_of_nonneg hlarge).symm
  | finite s m e hm =>
    have hpos : (0 : ℚ) ≤ m * 2 ^ e := (Canonical.magnitude_pos hx).le
    cases s
    · exact ((abs_neg _).trans (abs_of_nonneg hpos)).symm
    · exact (abs_of_nonneg hpos).symm

variable {a b c d : Float}

theorem unpack_abs (a : Float) : a.abs.toModel.unpack = a.toModel.unpack.abs :=
  (isCanonical_abs (isCanonical_unpack a.toModel)).unpack_pack

theorem valueOf_abs (a : Float) : valueOf a.abs = |valueOf a| := by
  rw [valueOf, unpack_abs, value_abs (isCanonical_unpack _)]
  rfl

theorem valueOf_sub (ha : a.isFinite = true) (hb : b.isFinite = true) :
    valueOf (a - b) = storedValue (valueOf a - valueOf b) :=
  value_sub (isCanonical_unpack _) (isCanonical_unpack _) ha hb

theorem valueOf_add (ha : a.isFinite = true) (hb : b.isFinite = true) :
    valueOf (a + b) = storedValue (valueOf a + valueOf b) :=
  value_add (isCanonical_unpack _) (isCanonical_unpack _) ha hb

theorem valueOf_abs_sub (ha : a.isFinite = true) (hb : b.isFinite = true) :
    valueOf (a - b).abs = stored |valueOf a - valueOf b| := by
  rw [valueOf_abs, valueOf_sub ha hb, abs_storedValue]

theorem sub_ne_notANumber (ha : a.isFinite = true) (hb : b.isFinite = true) :
    (a - b).toModel.unpack ≠ .notANumber :=
  unpack_pack_ne_notANumber (isFinite_sub ha hb)

theorem add_ne_notANumber (ha : a.isFinite = true) (hb : b.isFinite = true) :
    (a + b).toModel.unpack ≠ .notANumber := by
  change (Float.Model.pack (UnpackedFloat.add Format.binary64 a.toModel.unpack
    b.toModel.unpack)).unpack ≠ .notANumber
  rw [add_eq_sub_neg ha hb]
  exact unpack_pack_ne_notANumber (isFinite_sub ha (isFinite_negated hb))

theorem abs_ne_notANumber (h : a.toModel.unpack ≠ .notANumber) :
    a.abs.toModel.unpack ≠ .notANumber := by
  rw [unpack_abs]
  cases ha : a.toModel.unpack with
  | notANumber => exact absurd ha h
  | infinity s => exact UnpackedFloat.noConfusion
  | zero s => exact UnpackedFloat.noConfusion
  | finite s m e hm => exact UnpackedFloat.noConfusion

/-- A number is stored as itself. -/
theorem storedValue_valueOf (h : a.isFinite = true) : storedValue (valueOf a) = valueOf a := by
  have hcanonical := isCanonical_unpack a.toModel
  unfold valueOf
  rcases zero_or_finite (x := a.toModel.unpack) h with ⟨s, hs⟩ | ⟨s, m, e, hm, hs⟩
  · rw [hs]
    exact (storedValue_of_nonneg le_rfl).trans stored_zero
  · rw [hs] at hcanonical ⊢
    exact storedValue_signed hcanonical s

/-- What lies between two numbers is computed to be no farther from the first than the second is. -/
theorem abs_sub_lt_of_between (ha : a.isFinite = true) (hb : b.isFinite = true)
    (hc : c.isFinite = true) (hd : d.isFinite = true) (hab : valueOf a ≤ valueOf b)
    (hbc : valueOf b ≤ valueOf c) (h : (a - c).abs < d) : (a - b).abs < d := by
  have hd := ne_notANumber_of_isFinite hd
  rw [lt_iff_valueOf_lt (abs_ne_notANumber (sub_ne_notANumber ha hc)) hd,
    valueOf_abs_sub ha hc] at h
  rw [lt_iff_valueOf_lt (abs_ne_notANumber (sub_ne_notANumber ha hb)) hd, valueOf_abs_sub ha hb]
  have hdistance : |valueOf a - valueOf b| ≤ |valueOf a - valueOf c| := by
    rw [abs_sub_comm, abs_sub_comm (valueOf a), abs_of_nonneg (sub_nonneg.2 hab),
      abs_of_nonneg (sub_nonneg.2 (hab.trans hbc))]
    exact sub_le_sub_right hbc _
  exact (stored_mono (abs_nonneg _) hdistance).trans_lt h

/-- Numbers that are not close are at least so far apart. -/
theorem le_sub_of_not_abs_sub_lt (ha : a.isFinite = true) (hb : b.isFinite = true)
    (hd : d.isFinite = true) (hab : valueOf a ≤ valueOf b) (h : ¬ (a - b).abs < d) : d ≤ b - a := by
  have hd := ne_notANumber_of_isFinite hd
  rw [lt_iff_valueOf_lt (abs_ne_notANumber (sub_ne_notANumber ha hb)) hd, not_lt,
    valueOf_abs_sub ha hb, abs_sub_comm, abs_of_nonneg (sub_nonneg.2 hab)] at h
  rwa [le_iff_valueOf_le hd (sub_ne_notANumber hb ha), valueOf_sub hb ha,
    storedValue_of_nonneg (sub_nonneg.2 hab)]

end ThermalLabel.Binary64
