import Mathlib
import ThermalLabel.Image.Encode
import ThermalLabel.Proofs.Number.HalfUp
/-!
# Sides that fit a box

A side that is multiplied by a proportion below one does not grow when it is rounded. So shrinking a
picture of ordinary sides into a box always gives sides again.
-/

namespace ThermalLabel.Image

open Float.Model Binary64

variable {s : Sides} {side num den maxWidth maxHeight : Int}

/-- The quotient of a positive integer by a larger one is at most one. -/
theorem exists_ratio (hnum : 0 < num) (h : num < den) :
    ∃ q, integerQuotient num den = .ok q ∧ q.isFinite = true ∧ 0 ≤ valueOf q ∧ valueOf q ≤ 1 := by
  have hnum' : (0 : ℚ) < num := by exact_mod_cast hnum
  have h' : (num : ℚ) < den := by exact_mod_cast h
  have hlow : (0 : ℚ) ≤ (num : ℚ) / den := (div_pos hnum' (hnum'.trans h')).le
  have hhigh : (num : ℚ) / den ≤ (1 : ℕ) := by
    rw [Nat.cast_one]
    exact ((div_lt_one (hnum'.trans h')).2 h').le
  obtain ⟨q, hq, hfinite, hvalue⟩ := exists_integerQuotient (hnum.trans h).ne' (m := num) (by
    rw [abs_of_nonneg hlow]
    exact hhigh.trans (by norm_num))
  rw [storedValue_of_nonneg hlow] at hvalue
  refine ⟨q, hq, hfinite, ?_, ?_⟩
  · rw [hvalue]
    exact stored_nonneg hlow
  · rw [hvalue]
    exact_mod_cast stored_le_natCast hlow (by decide) hhigh

/-- A product with a number from zero to one does not grow when it is stored. -/
theorem product_mem {side : Int} (hside : side ∈ Set.Icc 0 (2 ^ 53)) {q : Float}
    (hq : q.isFinite = true) (hlow : 0 ≤ valueOf q) (hhigh : valueOf q ≤ 1) :
    (Float.ofInt side * q).isFinite = true ∧ 0 ≤ valueOf (Float.ofInt side * q) ∧
      valueOf (Float.ofInt side * q) ≤ side := by
  have hfinite := isFinite_ofInt_of_mem hside
  have hvalue := valueOf_ofInt hside
  obtain ⟨hpos, hle⟩ := hside
  obtain ⟨k, rfl⟩ := Int.eq_ofNat_of_zero_le hpos
  rw [Int.cast_natCast] at hvalue ⊢
  have hnonneg : 0 ≤ k * valueOf q := mul_nonneg (Nat.cast_nonneg k) hlow
  have hproduct : valueOf (Float.ofInt k * q) = stored (k * valueOf q) := by
    rw [valueOf_mul hfinite hq, hvalue, storedValue_of_nonneg hnonneg]
  have hstored : stored (k * valueOf q) ≤ k :=
    stored_le_natCast hnonneg (by omega) (mul_le_of_le_one_right (Nat.cast_nonneg k) hhigh)
  have hk : (k : ℚ) ≤ 2 ^ 53 := by exact_mod_cast hle
  refine ⟨?_, ?_, ?_⟩
  · apply isFinite_of_abs_valueOf_lt (mul_ne_notANumber hfinite hq)
    rw [hproduct, abs_of_nonneg (stored_nonneg hnonneg)]
    exact (hstored.trans hk).trans_lt (pow_lt_pow_right₀ (by norm_num) (by norm_num))
  · rw [hproduct]
    exact stored_nonneg hnonneg
  · rw [hproduct]
    exact hstored

/-- A side in a proportion below one is rounded to no more than itself. -/
theorem exists_proportional_le (hside : side ∈ Set.Icc 0 (2 ^ 53)) (hnum : 0 < num)
    (h : num < den) : ∃ n, proportional side num den = .ok n ∧ 0 ≤ n ∧ n ≤ side := by
  obtain ⟨q, hq, hqfinite, hqlow, hqhigh⟩ := exists_ratio hnum h
  obtain ⟨hfinite, hlow, hhigh⟩ := product_mem hside hqfinite hqlow hqhigh
  have hside' : (side : ℚ) ≤ 2 ^ 53 := by exact_mod_cast hside.2
  refine ⟨⌊valueOf (Float.ofInt side * q) + 1 / 2⌋, ?_, ?_, ?_⟩
  · rw [proportional, hq, ofInteger_of_mem hside]
    exact roundHalfUp_eq hfinite hlow (hhigh.trans hside')
  · rw [Int.floor_nonneg]
    linarith
  · rw [← Int.lt_add_one_iff, Int.floor_lt]
    push_cast
    linarith

theorem exists_narrowed (hheight : s.height ∈ Set.Icc 0 (2 ^ 53)) (hmaxWidth : 1 ≤ maxWidth) :
    ∃ t, narrowed s maxWidth = .ok t ∧ t.width = min s.width maxWidth ∧ 0 ≤ t.height ∧
      t.height ≤ s.height ∧ (s.width ≤ maxWidth → t = s) := by
  by_cases hwide : maxWidth < s.width
  · obtain ⟨n, hn, hlow, hhigh⟩ := exists_proportional_le hheight (by omega) hwide
    refine ⟨⟨maxWidth, n⟩, ?_, (min_eq_right hwide.le).symm, hlow, hhigh, fun hfit => by omega⟩
    rw [narrowed, if_pos hwide, hn]
    rfl
  · obtain ⟨hpos, -⟩ := hheight
    exact ⟨s, if_neg hwide, (min_eq_left (by omega)).symm, by omega, le_rfl, fun _ => rfl⟩

theorem exists_lowered (hwidth : s.width ∈ Set.Icc 0 (2 ^ 53)) (hmaxHeight : 1 ≤ maxHeight) :
    ∃ t, lowered s maxHeight = .ok t ∧ t.height = min s.height maxHeight ∧ 0 ≤ t.width ∧
      t.width ≤ s.width ∧ (s.height ≤ maxHeight → t = s) := by
  by_cases hhigh : maxHeight < s.height
  · obtain ⟨n, hn, hlow, hle⟩ := exists_proportional_le hwidth (by omega) hhigh
    refine ⟨⟨n, maxHeight⟩, ?_, (min_eq_right hhigh.le).symm, hlow, hle, fun hfit => by omega⟩
    rw [lowered, if_pos hhigh, hn]
    rfl
  · obtain ⟨hpos, -⟩ := hwidth
    exact ⟨s, if_neg hhigh, (min_eq_left (by omega)).symm, by omega, le_rfl, fun _ => rfl⟩

/-- At least one pixel, and short enough for a binary number to hold. -/
def IsLength (n : Int) : Prop := 1 ≤ n ∧ n < 10 ^ 28

theorem IsLength.natAbs_lt {n : Int} (h : IsLength n) : n.natAbs < 2 ^ 256 := by
  obtain ⟨hpos, hlt⟩ := h
  omega

/-- Sides of a picture fit into every box of at least one pixel. -/
theorem exists_fitWithin (hwidth : 0 < s.width) (hwidth' : s.width < 2 ^ 53) (hheight : 0 < s.height)
    (hheight' : s.height < 2 ^ 53) (hmaxWidth : 0 < maxWidth) (hmaxHeight : 0 < maxHeight) :
    ∃ t, fitWithin s maxWidth maxHeight = .ok t ∧ IsLength t.width ∧ IsLength t.height := by
  -- Narrowing may leave no height at all, but the width that lowering starts from stays ordinary.
  obtain ⟨t, ht, htwidth, htheight, htheight', -⟩ :=
    exists_narrowed (s := s) ⟨hheight.le, hheight'.le⟩ hmaxWidth
  obtain ⟨u, hu, huheight, huwidth, huwidth', -⟩ :=
    exists_lowered (s := t) ⟨by omega, by omega⟩ hmaxHeight
  refine ⟨⟨max 1 u.width, max 1 u.height⟩, ?_, ⟨le_max_left _ _, ?_⟩, ⟨le_max_left _ _, ?_⟩⟩
  · rw [fitWithin, ht]
    change lowered t maxHeight >>= _ = _
    rw [hu]
    rfl
  · simp only
    omega
  · simp only
    omega

end ThermalLabel.Image
