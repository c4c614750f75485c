import Mathlib
import ThermalLabel.Proofs.Number.Finite
import ThermalLabel.Proofs.Number.Order
/-!
# The values of binary numbers

A number read from its bits is a rational number, and numbers compare as their values do. An
infinite number counts as the least power of two that is too large.
-/

namespace ThermalLabel.Binary64

open Float.Model Float.Model.UnpackedFloat

/-- A magnitude with a sign. -/
def signed : Sign → ℚ → ℚ
  | .positive, v => v
  | .negative, v => -v

def value : UnpackedFloat → ℚ
  | .finite s m e _ => signed s (m * 2 ^ e)
  | .infinity s => signed s (2 ^ 1024)
  | .zero _ => 0
  | .notANumber => 0

/-- As numbers are read from their bits. -/
def IsCanonical : UnpackedFloat → Prop
  | .finite _ m e _ => Canonical m e
  | _ => True

variable {x y : UnpackedFloat} {m n : Nat} {e f : Int}

theorem isCanonical_unpack (a : Float.Model) : IsCanonical a.unpack := by
  cases h : a.unpack with
  | finite s m e hm => exact canonical_of_unpack h
  | infinity s => trivial
  | zero s => trivial
  | notANumber => trivial

theorem IsCanonical.unpack_pack (h : IsCanonical x) : (Float.Model.pack x).unpack = x := by
  cases x with
  | finite s m e hm => exact Canonical.unpack_pack h s
  | infinity s => cases s <;> rfl
  | zero s => cases s <;> rfl
  | notANumber => rfl

/-! ## Magnitudes -/

theorem magnitude_pos (hm : 0 < m) (e : Int) : (0 : ℚ) < m * 2 ^ e :=
  mul_pos (Nat.cast_pos.2 hm) (by positivity)

theorem Canonical.magnitude_pos (h : Canonical m e) : (0 : ℚ) < m * 2 ^ e :=
  Binary64.magnitude_pos h.pos e

theorem Canonical.magnitude_lt_pow (h : Canonical m e) : (m : ℚ) * 2 ^ e < 2 ^ (e + 53) := by
  have hm : (m : ℚ) < 2 ^ (53 : ℤ) := by exact_mod_cast h.lt
  rw [add_comm, zpow_add₀ (by norm_num)]
  exact mul_lt_mul_of_pos_right hm (by positivity)

theorem Canonical.magnitude_lt (h : Canonical m e) : (m : ℚ) * 2 ^ e < 2 ^ 1024 := by
  have hle : (2 : ℚ) ^ (e + 53) ≤ 2 ^ (1024 : ℤ) :=
    zpow_le_zpow_right₀ (by norm_num) (by linarith [h.le_maxExponent])
  exact h.magnitude_lt_pow.trans_le hle

/-- The exponent counts more than the mantissa: only the least one is used below full length. -/
theorem Canonical.magnitude_lt_of_exponent_lt (h : Canonical m e) (h' : Canonical n f)
    (hef : e < f) : (m : ℚ) * 2 ^ e < n * 2 ^ f := by
  have hfull : 2 ^ 52 ≤ n := h'.full.resolve_right (by linarith [h.minExponent_le])
  have hn : (2 : ℚ) ^ (52 : ℤ) ≤ n := by exact_mod_cast hfull
  calc (m : ℚ) * 2 ^ e < 2 ^ (e + 53) := h.magnitude_lt_pow
    _ ≤ 2 ^ (52 + f) := zpow_le_zpow_right₀ (by norm_num) (by omega)
    _ = 2 ^ (52 : ℤ) * 2 ^ f := zpow_add₀ (by norm_num) _ _
    _ ≤ n * 2 ^ f := mul_le_mul_of_nonneg_right hn (by positivity)

theorem Canonical.magnitude_lt_magnitude (h : Canonical m e) (h' : Canonical n f)
    (hlt : e < f ∨ e = f ∧ m < n) : (m : ℚ) * 2 ^ e < n * 2 ^ f := by
  obtain hef | ⟨rfl, hmn⟩ := hlt
  · exact h.magnitude_lt_of_exponent_lt h' hef
  · exact mul_lt_mul_of_pos_right (Nat.cast_lt.2 hmn) (by positivity)

/-! ## The order of values -/

theorem value_lt_of_rank_lt (hx : IsCanonical x) (hy : IsCanonical y) (hxf : x.isFinite = true)
    (hyf : y.isFinite = true) (h : rank x < rank y) : value x < value y := by
  rcases zero_or_finite hxf with ⟨s, rfl⟩ | ⟨s, m, e, hm, rfl⟩
  · rcases zero_or_finite hyf with ⟨t, rfl⟩ | ⟨t, n, f, hn, rfl⟩
    · exact absurd h (lt_irrefl _)
    · cases t
      · exact absurd h (by simp [rank, Prod.Lex.toLex_lt_toLex])
      · exact Canonical.magnitude_pos hy
  · rcases zero_or_finite hyf with ⟨t, rfl⟩ | ⟨t, n, f, hn, rfl⟩
    · cases s
      · exact neg_lt_zero.2 (Canonical.magnitude_pos hx)
      · exact absurd h (by simp [rank, Prod.Lex.toLex_lt_toLex])
    · cases s <;> cases t
      · simp only [rank, Prod.Lex.toLex_lt_toLex, lt_self_iff_false, true_and, false_or,
          neg_lt_neg_iff, neg_inj, Nat.cast_lt] at h
        exact neg_lt_neg (Canonical.magnitude_lt_magnitude hy hx (h.imp_right fun h =>
          ⟨h.1.symm, h.2⟩))
      · exact (neg_lt_zero.2 (Canonical.magnitude_pos hx)).trans (Canonical.magnitude_pos hy)
      · exact absurd h (by simp [rank, Prod.Lex.toLex_lt_toLex])
      · simp only [rank, Prod.Lex.toLex_lt_toLex, lt_self_iff_false, true_and, false_or,
          Nat.cast_lt] at h
        exact Canonical.magnitude_lt_magnitude hx hy h

theorem value_eq_of_rank_eq (hxf : x.isFinite = true) (hyf : y.isFinite = true)
    (h : rank x = rank y) : value x = value y := by
  obtain hsame | ⟨s, t, hx, hy⟩ := eq_or_zeros_of_rank_eq hxf hyf h
  · rw [hsame]
  · rw [hx, hy]
    rfl

theorem compare_rank_eq_value (hx : IsCanonical x) (hy : IsCanonical y) (hxf : x.isFinite = true)
    (hyf : y.isFinite = true) : compare (rank x) (rank y) = compare (value x) (value y) := by
  rcases lt_trichotomy (rank x) (rank y) with h | h | h
  · rw [compare_lt_iff_lt.2 h, compare_lt_iff_lt.2 (value_lt_of_rank_lt hx hy hxf hyf h)]
  · rw [compare_eq_iff_eq.2 h, compare_eq_iff_eq.2 (value_eq_of_rank_eq hxf hyf h)]
  · rw [compare_gt_iff_gt.2 h, compare_gt_iff_gt.2 (value_lt_of_rank_lt hy hx hyf hxf h)]

theorem IsCanonical.abs_value_lt (hx : IsCanonical x) (hxf : x.isFinite = true) :
    |value x| < 2 ^ 1024 := by
  rcases zero_or_finite hxf with ⟨s, rfl⟩ | ⟨s, m, e, hm, rfl⟩
  · rw [value, abs_zero]
    positivity
  · have habs : |value (.finite s m e hm)| = m * 2 ^ e := by
      cases s
      · rw [value, signed, abs_neg, abs_of_pos (Canonical.magnitude_pos hx)]
      · rw [value, signed, abs_of_pos (Canonical.magnitude_pos hx)]
    rw [habs]
    exact Canonical.magnitude_lt hx

theorem infinity_or_isFinite (h : x ≠ .notANumber) :
    (∃ s, x = .infinity s) ∨ x.isFinite = true := by
  cases x with
  | notANumber => exact absurd rfl h
  | infinity s => exact .inl ⟨s, rfl⟩
  | zero s => exact .inr rfl
  | finite s m e hm => exact .inr rfl

theorem compare_infinity (hy : IsCanonical y) (hyf : y.isFinite = true) (s : Sign) :
    UnpackedFloat.compare (.infinity s) y = some (compare (value (.infinity s)) (value y)) ∧
      y.compare (.infinity s) = some (compare (value y) (value (.infinity s))) := by
  obtain ⟨hlow, hhigh⟩ := abs_lt.1 (hy.abs_value_lt hyf)
  cases s
  · have hlt : value (.infinity .negative) < value y := hlow
    rw [compare_lt_iff_lt.2 hlt, compare_gt_iff_gt.2 hlt]
    rcases zero_or_finite hyf with ⟨t, rfl⟩ | ⟨t, n, f, hn, rfl⟩
    · exact ⟨rfl, rfl⟩
    · cases t <;> exact ⟨rfl, rfl⟩
  · have hlt : value y < value (.infinity .positive) := hhigh
    rw [compare_lt_iff_lt.2 hlt, compare_gt_iff_gt.2 hlt]
    rcases zero_or_finite hyf with ⟨t, rfl⟩ | ⟨t, n, f, hn, rfl⟩
    · exact ⟨rfl, rfl⟩
    · cases t <;> exact ⟨rfl, rfl⟩

/-- Numbers compare as their values. -/
theorem compare_eq_value (hx : IsCanonical x) (hy : IsCanonical y) (hxn : x ≠ .notANumber)
    (hyn : y ≠ .notANumber) : x.compare y = some (compare (value x) (value y)) := by
  rcases infinity_or_isFinite hxn with ⟨s, rfl⟩ | hxf
  · rcases infinity_or_isFinite hyn with ⟨t, rfl⟩ | hyf
    · have hlt : value (.infinity .negative) < value (.infinity .positive) := by
        simp only [value, signed]
        norm_num
      cases s <;> cases t
      · exact congrArg some (compare_eq_iff_eq.2 rfl).symm
      · exact congrArg some (compare_lt_iff_lt.2 hlt).symm
      · exact congrArg some (compare_gt_iff_gt.2 hlt).symm
      · exact congrArg some (compare_eq_iff_eq.2 rfl).symm
    · exact (compare_infinity hy hyf s).1
  · rcases infinity_or_isFinite hyn with ⟨t, rfl⟩ | hyf
    · exact (compare_infinity hx hxf t).2
    · rw [compare_eq_rank hxf hyf, compare_rank_eq_value hx hy hxf hyf]

/-! ## Stored numbers -/

/-- The value of a number in memory. -/
def valueOf (x : Float) : ℚ := value x.toModel.unpack

variable {a b : Float}

theorem ne_notANumber_of_isFinite (h : a.isFinite = true) : a.toModel.unpack ≠ .notANumber := by
  intro hnan
  change a.toModel.unpack.isFinite = true at h
  rw [hnan] at h
  cases h

theorem lt_iff_valueOf_lt (ha : a.toModel.unpack ≠ .notANumber)
    (hb : b.toModel.unpack ≠ .notANumber) : a < b ↔ valueOf a < valueOf b := by
  rw [lt_iff_compare, compare_eq_value (isCanonical_unpack _) (isCanonical_unpack _) ha hb,
    Option.some_inj, compare_lt_iff_lt]
  rfl

theorem le_iff_valueOf_le (ha : a.toModel.unpack ≠ .notANumber)
    (hb : b.toModel.unpack ≠ .notANumber) : a ≤ b ↔ valueOf a ≤ valueOf b := by
  change decide (a.toModel.unpack.le b.toModel.unpack = true) = true ↔ _
  rw [decide_eq_true_eq, UnpackedFloat.le,
    compare_eq_value (isCanonical_unpack _) (isCanonical_unpack _) ha hb, Option.any_some,
    Ordering.isLE_iff_ne_gt, compare_gt_iff_gt, not_lt]
  rfl

theorem beq_iff_valueOf_eq (ha : a.toModel.unpack ≠ .notANumber)
    (hb : b.toModel.unpack ≠ .notANumber) : (a == b) = true ↔ valueOf a = valueOf b := by
  rw [beq_iff_compare, compare_eq_value (isCanonical_unpack _) (isCanonical_unpack _) ha hb,
    Option.some_inj, compare_eq_iff_eq]
  rfl

theorem orderKey_le_iff_valueOf_le (ha : a.isFinite = true) (hb : b.isFinite = true) :
    orderKey a ≤ orderKey b ↔ valueOf a ≤ valueOf b := by
  rw [← not_lt, ← lt_iff_orderKey_lt hb ha,
    lt_iff_valueOf_lt (ne_notANumber_of_isFinite hb) (ne_notANumber_of_isFinite ha), not_lt]

theorem eq_of_unpack_eq (h : a.toModel.unpack = b.toModel.unpack) : a = b := by
  obtain ⟨⟨⟨abits⟩, avalid⟩⟩ := a
  obtain ⟨⟨⟨bbits⟩, bvalid⟩⟩ := b
  obtain rfl : abits = bbits := (UnpackedFloat.unpack_inj_of_valid avalid bvalid).1 h
  rfl

/-- Numbers of one value are the same number, unless they are zeros. -/
theorem eq_of_valueOf_eq (ha : a.isFinite = true) (hb : b.isFinite = true)
    (h : valueOf a = valueOf b) (hne : valueOf a ≠ 0) : a = b := by
  have hkey : orderKey a = orderKey b :=
    le_antisymm ((orderKey_le_iff_valueOf_le ha hb).2 h.le)
      ((orderKey_le_iff_valueOf_le hb ha).2 h.ge)
  rcases eq_or_zeros_of_rank_eq ha hb hkey with hsame | ⟨s, t, hs, -⟩
  · exact eq_of_unpack_eq hsame
  · refine absurd ?_ hne
    rw [valueOf, hs]
    rfl

theorem unpack_of_valueOf_eq_zero (ha : a.isFinite = true) (h : valueOf a = 0) :
    ∃ s, a.toModel.unpack = .zero s := by
  rcases zero_or_finite (x := a.toModel.unpack) ha with hzero | ⟨s, m, e, hm, hs⟩
  · exact hzero
  · rw [valueOf, hs] at h
    cases s
    · exact absurd h (neg_lt_zero.2 (magnitude_pos hm e)).ne
    · exact absurd h (magnitude_pos hm e).ne'

end ThermalLabel.Binary64
