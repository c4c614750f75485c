import Mathlib
import ThermalLabel.Proofs.Image.Fitting
/-!
# Shrinking into a box

A picture that is shrunk fits its box, touches one of its bounds, and is left as it is by shrinking
it again.
-/

namespace ThermalLabel

namespace Image

variable {s : Sides} {maxWidth maxHeight : Int}

/-- What fits is left as it is. -/
theorem fitWithin_of_le (hwidth : 1 ≤ s.width) (hheight : 1 ≤ s.height)
    (hfitWidth : s.width ≤ maxWidth) (hfitHeight : s.height ≤ maxHeight) :
    fitWithin s maxWidth maxHeight = .ok s := by
  rw [fitWithin, narrowed, if_neg (not_lt.2 hfitWidth)]
  change lowered s maxHeight >>= _ = _
  rw [lowered, if_neg (not_lt.2 hfitHeight)]
  change Except.ok (Sides.mk (max 1 s.width) (max 1 s.height)) = _
  rw [max_eq_right hwidth, max_eq_right hheight]

/-- A picture is shrunk to sides that its box and the picture itself have room for, and no further
than to touch the box. Shrinking it again changes nothing. -/
theorem fitWithin_fits (hwidth : s.width ∈ Set.Icc 1 (2 ^ 53))
    (hheight : s.height ∈ Set.Icc 1 (2 ^ 53)) (hmaxWidth : 1 ≤ maxWidth)
    (hmaxHeight : 1 ≤ maxHeight) :
    ∃ t, fitWithin s maxWidth maxHeight = .ok t ∧
      t.width ∈ Set.Icc 1 (min s.width maxWidth) ∧ t.height ∈ Set.Icc 1 (min s.height maxHeight) ∧
      (t = s ↔ s.width ≤ maxWidth ∧ s.height ≤ maxHeight) ∧
      (t ≠ s → t.width = maxWidth ∨ t.height = maxHeight) ∧
      fitWithin t maxWidth maxHeight = .ok t := by
  obtain ⟨hwidthPos, hwidthMax⟩ := hwidth
  obtain ⟨hheightPos, hheightMax⟩ := hheight
  obtain ⟨t, ht, htwidth, htlow, hthigh, htsame⟩ :=
    exists_narrowed (s := s) ⟨by omega, hheightMax⟩ hmaxWidth
  obtain ⟨u, hu, huheight, hulow, huhigh, husame⟩ :=
    exists_lowered (s := t) ⟨by omega, by omega⟩ hmaxHeight
  have hfit : fitWithin s maxWidth maxHeight = .ok ⟨max 1 u.width, max 1 u.height⟩ := by
    rw [fitWithin, ht]
    change lowered t maxHeight >>= _ = _
    rw [hu]
    rfl
  have hsame (hle : s.width ≤ maxWidth ∧ s.height ≤ maxHeight) :
      Sides.mk (max 1 u.width) (max 1 u.height) = s := by
    have hts := htsame hle.1
    rw [hts] at husame
    rw [husame hle.2, max_eq_right hwidthPos, max_eq_right hheightPos]
  have hwidthLe : max 1 u.width ≤ min s.width maxWidth := by omega
  have hheightLe : max 1 u.height ≤ min s.height maxHeight := by omega
  refine ⟨_, hfit, ⟨le_max_left _ _, hwidthLe⟩, ⟨le_max_left _ _, hheightLe⟩, ⟨?_, hsame⟩, ?_,
    fitWithin_of_le (le_max_left _ _) (le_max_left _ _) (hwidthLe.trans (min_le_right _ _))
      (hheightLe.trans (min_le_right _ _))⟩
  · intro heq
    have hwidthEq := congrArg Sides.width heq
    have hheightEq := congrArg Sides.height heq
    simp only at hwidthEq hheightEq
    omega
  · intro hne
    by_cases hhigh : t.height ≤ maxHeight
    · -- Only narrowing shrank the picture.
      have hut := husame hhigh
      have hwide : maxWidth < s.width := by
        by_contra hfits
        refine hne (hsame ⟨by omega, ?_⟩)
        rwa [htsame (by omega)] at hhigh
      refine .inl ?_
      rw [hut]
      simp only
      omega
    · refine .inr ?_
      simp only
      omega

/-- Narrowing rounds the height to nothing, and one pixel is left of it. -/
theorem fitWithin_wide_fits :
    ∃ t, fitWithin ⟨2 ^ 53, 3⟩ 7 1 = .ok t ∧
      t.width ∈ Set.Icc 1 (min (2 ^ 53) 7) ∧ t.height ∈ Set.Icc 1 (min 3 1) ∧
      (t = ⟨2 ^ 53, 3⟩ ↔ (2 : Int) ^ 53 ≤ 7 ∧ (3 : Int) ≤ 1) ∧
      (t ≠ ⟨2 ^ 53, 3⟩ → t.width = 7 ∨ t.height = 1) ∧ fitWithin t 7 1 = .ok t :=
  fitWithin_fits (s := ⟨2 ^ 53, 3⟩) (by simp) (by simp) (by decide) (by decide)

end Image
end ThermalLabel
