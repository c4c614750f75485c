import Mathlib
import ThermalLabel.Number.Rounding
import ThermalLabel.Proofs.Number.Binary64
/-!
# The order of binary numbers

Finite numbers compare by sign, then by exponent, then by mantissa, and both zeros tie. So they are
ordered like their keys, and two that tie are equally far from any third. A number held between two
bounds lies between them, whether it compares with them or not.
-/

namespace ThermalLabel

open Float.Model Float.Model.UnpackedFloat

namespace Binary64

/-- Where a finite number stands among all others. -/
def rank : UnpackedFloat → ℤ ×ₗ ℤ ×ₗ ℤ
  | .finite .positive m e _ => toLex (1, toLex (e, (m : ℤ)))
  | .finite .negative m e _ => toLex (-1, toLex (-e, -(m : ℤ)))
  | _ => toLex (0, toLex (0, 0))

private theorem compare_neg (m n : ℤ) : compare (-m) (-n) = (compare m n).swap := by
  rcases lt_trichotomy m n with h | rfl | h
  · rw [compare_lt_iff_lt.2 h, compare_gt_iff_gt.2 (neg_lt_neg h)]
    rfl
  · simp
  · rw [compare_gt_iff_gt.2 h, compare_lt_iff_lt.2 (neg_lt_neg h)]
    rfl

private theorem compare_natCast (m n : ℕ) : compare (m : ℤ) n = compare m n := by
  rcases lt_trichotomy m n with h | rfl | h
  · rw [compare_lt_iff_lt.2 h, compare_lt_iff_lt.2 (Int.ofNat_lt.2 h)]
  · simp
  · rw [compare_gt_iff_gt.2 h, compare_gt_iff_gt.2 (Int.ofNat_lt.2 h)]

theorem compare_eq_rank {a b : UnpackedFloat} (ha : a.isFinite = true) (hb : b.isFinite = true) :
    a.compare b = some (compare (rank a) (rank b)) := by
  rcases zero_or_finite ha with ⟨s, rfl⟩ | ⟨s, m, e, hm, rfl⟩
  · rcases zero_or_finite hb with ⟨t, rfl⟩ | ⟨t, n, f, hn, rfl⟩
    · rfl
    · cases t <;> rfl
  · rcases zero_or_finite hb with ⟨t, rfl⟩ | ⟨t, n, f, hn, rfl⟩
    · cases s <;> rfl
    · -- Where the signs differ they decide.
      cases s <;> cases t
      · change some _ = some ((compare (-e) (-f)).then (compare (-(m : ℤ)) (-(n : ℤ))))
        rw [compare_neg, compare_neg, compare_natCast, Ordering.swap_then]
      · rfl
      · rfl
      · change some _ = some ((compare e f).then (compare (m : ℤ) n))
        rw [compare_natCast]

theorem eq_or_zeros_of_rank_eq {a b : UnpackedFloat} (ha : a.isFinite = true)
    (hb : b.isFinite = true) (h : rank a = rank b) :
    a = b ∨ ∃ s t, a = .zero s ∧ b = .zero t := by
  rcases zero_or_finite ha with ⟨s, rfl⟩ | ⟨s, m, e, hm, rfl⟩
  · rcases zero_or_finite hb with ⟨t, rfl⟩ | ⟨t, n, f, hn, rfl⟩
    · exact Or.inr ⟨s, t, rfl, rfl⟩
    · cases t <;> simp [rank] at h
  · rcases zero_or_finite hb with ⟨t, rfl⟩ | ⟨t, n, f, hn, rfl⟩
    · cases s <;> simp [rank] at h
    · cases s <;> cases t <;> simp_all [rank]

variable {x y z : Float}

theorem lt_iff_compare : x < y ↔ x.toModel.unpack.compare y.toModel.unpack = some .lt := by
  change decide (x.toModel.unpack.lt y.toModel.unpack = true) = true ↔ _
  rw [decide_eq_true_eq]
  exact beq_iff_eq

theorem beq_iff_compare :
    (x == y) = true ↔ x.toModel.unpack.compare y.toModel.unpack = some .eq := by
  change x.toModel.unpack.beq y.toModel.unpack = true ↔ _
  exact beq_iff_eq

theorem le_of_lt (h : x < y) : x ≤ y := by
  change decide (x.toModel.unpack.le y.toModel.unpack = true) = true
  rw [decide_eq_true_eq, UnpackedFloat.le, lt_iff_compare.1 h]
  rfl

/-! ## Ties -/

def orderKey (x : Float) : ℤ ×ₗ ℤ ×ₗ ℤ := rank x.toModel.unpack

theorem lt_iff_orderKey_lt (hx : x.isFinite = true) (hy : y.isFinite = true) :
    x < y ↔ orderKey x < orderKey y := by
  rw [lt_iff_compare, compare_eq_rank hx hy, Option.some_inj, compare_lt_iff_lt]
  rfl

theorem beq_iff_orderKey_eq (hx : x.isFinite = true) (hy : y.isFinite = true) :
    (x == y) = true ↔ orderKey x = orderKey y := by
  rw [beq_iff_compare, compare_eq_rank hx hy, Option.some_inj, compare_eq_iff_eq]
  rfl

/-- Finite numbers neither of which is less than the other. -/
structure Ties (x y : Float) : Prop where
  left : x.isFinite = true
  right : y.isFinite = true
  key : orderKey x = orderKey y

theorem ties_refl (h : x.isFinite = true) : Ties x x := ⟨h, h, rfl⟩

theorem Ties.symm (h : Ties x y) : Ties y x := ⟨h.right, h.left, h.key.symm⟩

theorem Ties.trans (hxy : Ties x y) (hyz : Ties y z) : Ties x z :=
  ⟨hxy.left, hyz.right, hxy.key.trans hyz.key⟩

private theorem abs_sub_eq (x y : Float) :
    (x - y).abs =
      ⟨(Float.Model.pack
        (UnpackedFloat.sub Format.binary64 x.toModel.unpack y.toModel.unpack)).abs⟩ :=
  rfl

/-- Numbers that tie are equally far from any third one. -/
theorem Ties.abs_sub_eq (h : Ties x y) (hz : z.isFinite = true) :
    (z - x).abs = (z - y).abs ∧ (x - z).abs = (y - z).abs := by
  have hx : x.toModel.unpack.isFinite = true := h.left
  have hy : y.toModel.unpack.isFinite = true := h.right
  change z.toModel.unpack.isFinite = true at hz
  simp only [Binary64.abs_sub_eq]
  rcases eq_or_zeros_of_rank_eq hx hy h.key with hsame | ⟨s, t, hxs, hyt⟩
  · rw [hsame]
    exact ⟨rfl, rfl⟩
  · -- Zeros of either sign are left: taking one from a number gives the number or a zero.
    rw [hxs, hyt]
    rcases zero_or_finite hz with ⟨u, hzu⟩ | ⟨u, m, e, hm, hzu⟩
    · rw [hzu]
      cases s <;> cases t <;> cases u <;> exact ⟨rfl, rfl⟩
    · rw [hzu]
      exact ⟨rfl, rfl⟩

theorem Ties.abs_sub_congr {x' y' : Float} (hx : Ties x x') (hy : Ties y y') :
    (x - y).abs = (x' - y').abs :=
  (hx.abs_sub_eq hy.left).2.trans (hy.abs_sub_eq hx.right).1

theorem Ties.abs_sub_eq_zero (h : Ties x y) : (x - y).abs = 0.0 := by
  have hx : x.toModel.unpack.isFinite = true := h.left
  have hy : y.toModel.unpack.isFinite = true := h.right
  rw [Binary64.abs_sub_eq]
  rcases eq_or_zeros_of_rank_eq hx hy h.key with hsame | ⟨s, t, hxs, hyt⟩
  · rw [← hsame]
    rcases zero_or_finite hx with ⟨u, hxu⟩ | ⟨u, m, e, hm, hxu⟩
    · rw [hxu]
      cases u <;> rfl
    · have hsub : UnpackedFloat.sub Format.binary64 (.finite u m e hm) (.finite u m e hm) =
          .zero .positive := by simp [UnpackedFloat.sub, UnpackedFloat.normalize]
      rw [hxu, hsub]
      rfl
  · rw [hxs, hyt]
    cases s <;> cases t <;> rfl

/-! ## Zero -/

theorem unpack_of_beq_zero (h : (x == 0.0) = true) : ∃ s, x.toModel.unpack = .zero s := by
  rw [beq_iff_compare] at h
  have hzero : (0.0 : Float).toModel.unpack = .zero .positive := rfl
  rw [hzero] at h
  cases hx : x.toModel.unpack with
  | notANumber =>
    rw [hx] at h
    cases h
  | infinity s =>
    rw [hx] at h
    cases s <;> cases h
  | finite s m e hm =>
    rw [hx] at h
    cases s <;> cases h
  | zero s => exact ⟨s, rfl⟩

/-- What is at least some positive number is not zero. -/
theorem beq_zero_of_le (hpositive : 0.0 < x) (h : x ≤ y) : (y == 0.0) = false := by
  rw [Bool.eq_false_iff]
  intro hy
  obtain ⟨s, hy⟩ := unpack_of_beq_zero hy
  have hzero : (0.0 : Float).toModel.unpack = .zero .positive := rfl
  have hle : x.toModel.unpack.le y.toModel.unpack = true := of_decide_eq_true h
  rw [lt_iff_compare, hzero] at hpositive
  rw [hy] at hle
  cases hx : x.toModel.unpack with
  | notANumber =>
    rw [hx] at hpositive
    cases hpositive
  | zero t =>
    rw [hx] at hpositive
    cases hpositive
  | infinity t =>
    rw [hx] at hpositive hle
    cases t
    · cases hpositive
    · cases hle
  | finite t m e hm =>
    rw [hx] at hpositive hle
    cases t
    · cases hpositive
    · cases hle

end Binary64

/-! ## Bounds -/

theorem atLeast_atMost_mem {lower upper : Float} (hlower : lower ≤ lower) (hupper : upper ≤ upper)
    (h : lower < upper) (x : Float) :
    lower ≤ atLeast lower (atMost upper x) ∧ atLeast lower (atMost upper x) ≤ upper := by
  have hbounds := Binary64.le_of_lt h
  unfold atLeast atMost
  by_cases hx : x < upper
  · by_cases hlower' : lower < x
    · simp only [if_pos hx, if_pos hlower']
      exact ⟨Binary64.le_of_lt hlower', Binary64.le_of_lt hx⟩
    · simp only [if_pos hx, if_neg hlower']
      exact ⟨hlower, hbounds⟩
  · simp only [if_neg hx, if_pos h]
    exact ⟨hbounds, hupper⟩

end ThermalLabel
