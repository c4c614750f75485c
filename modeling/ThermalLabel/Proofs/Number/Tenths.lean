import Mathlib
import ThermalLabel.Proofs.Number.HalfUp
/-!
# Tenths of binary numbers

A tenth of a number is no binary number, but storing it does not move it onto or over a point
halfway between whole numbers. So it is rounded as the exact tenth is.
-/

namespace ThermalLabel.Binary64

variable {m : Nat} {e : Int}

theorem stored_half {k : Nat} (h : k < 2 ^ 53) : stored ((k : ℚ) / 2) = k / 2 := by
  have hstored := stored_mantissa (f := -1) h.le (by decide) (mantissa_le h.le (by decide))
  rwa [zpow_neg_one, ← div_eq_mul_inv] at hstored

/-- The steps of a tenth are an eighth of those of the number, or smaller. -/
theorem gridExponent_tenth_le (h : Canonical m e) (htwo : 2 ≤ (m : ℚ) * 2 ^ e) :
    gridExponent (m * 2 ^ e / 10) ≤ e - 3 := by
  have hlt := h.magnitude_lt_pow
  have hlog : Int.log 2 ((m : ℚ) * 2 ^ e / 10) < e + 50 := by
    apply (Int.lt_zpow_iff_log_lt (b := 2) (by norm_num) (div_pos h.magnitude_pos (by norm_num))).1
    have hsplit : (2 : ℚ) ^ (e + 53) = 2 ^ (e + 50) * 8 := by
      rw [zpow_add₀ (by norm_num), zpow_add₀ (by norm_num)]
      norm_num
      ring
    have hpos : (0 : ℚ) < 2 ^ (e + 50) := by positivity
    push_cast
    linarith
  have hexponent : 1 < e + 53 := by
    apply (zpow_lt_zpow_iff_right₀ (a := (2 : ℚ)) (by norm_num)).1
    rw [zpow_one]
    exact htwo.trans_lt hlt
  unfold gridExponent
  omega

/-- A number below a whole number is a step of its grid below it. -/
theorem add_step_le (he : e ≤ 0) {n : Nat} (h : (m : ℚ) * 2 ^ e < n) :
    ((m : ℚ) + 1) * 2 ^ e ≤ n := by
  obtain ⟨k, rfl⟩ : ∃ k : ℕ, e = -k := ⟨(-e).toNat, by omega⟩
  rw [zpow_neg, zpow_natCast, ← div_eq_mul_inv] at h ⊢
  rw [div_lt_iff₀ (by positivity)] at h
  rw [div_le_iff₀ (by positivity)]
  have hnat : m < n * 2 ^ k := by exact_mod_cast h
  exact_mod_cast hnat

theorem stored_tenth_lt (h : Canonical m e) (he : e ≤ 0) {n : Nat}
    (hlt : (m : ℚ) * 2 ^ e / 10 < n + 1 / 2) : stored (m * 2 ^ e / 10) < n + 1 / 2 := by
  have hn : (0 : ℚ) ≤ n := Nat.cast_nonneg n
  by_cases htwo : 2 ≤ (m : ℚ) * 2 ^ e
  · have hstored := stored_le ((m : ℚ) * 2 ^ e / 10)
    have hgrid : (2 : ℚ) ^ gridExponent (m * 2 ^ e / 10) ≤ 2 ^ e / 8 := by
      calc (2 : ℚ) ^ gridExponent (m * 2 ^ e / 10) ≤ 2 ^ (e - 3) :=
            zpow_le_zpow_right₀ (by norm_num) (gridExponent_tenth_le h htwo)
        _ = 2 ^ e / 8 := by
            rw [zpow_sub₀ (by norm_num)]
            norm_num
    have hstep := add_step_le he (m := m) (n := 10 * n + 5) (by
      push_cast
      linarith)
    have hpos : (0 : ℚ) < 2 ^ e := by positivity
    push_cast at hstep
    linarith
  · -- A small number may be on the least grid, but its tenth is far below a half.
    have hquarter : Canonical (2 ^ 52) (-54) :=
      ⟨by decide, by decide, by decide, by decide, .inl le_rfl⟩
    have hvalue : ((2 ^ 52 : ℕ) : ℚ) * 2 ^ (-54 : ℤ) = 1 / 4 := by norm_num
    have hle : (m : ℚ) * 2 ^ e / 10 ≤ (2 ^ 52 : ℕ) * 2 ^ (-54 : ℤ) := by
      rw [hvalue]
      linarith
    have hstored := stored_mono (div_nonneg h.magnitude_pos.le (by norm_num)) hle
    rw [stored_of_canonical hquarter, hvalue] at hstored
    linarith

theorem le_stored_tenth {n : Nat} (hn : n < 2 ^ 52) (hv : 0 ≤ (m : ℚ) * 2 ^ e / 10)
    (hle : (n : ℚ) ≤ m * 2 ^ e / 10 + 1 / 2) : (n : ℚ) ≤ stored (m * 2 ^ e / 10) + 1 / 2 := by
  obtain rfl | hpos := Nat.eq_zero_or_pos n
  · have hstored := stored_zero.symm.trans_le (stored_mono le_rfl hv)
    rw [Nat.cast_zero]
    linarith
  · have hhalf := stored_half (k := 2 * n - 1) (by omega)
    rw [Nat.cast_sub (by omega)] at hhalf
    push_cast at hhalf
    have hn' : (1 : ℚ) ≤ n := by exact_mod_cast hpos
    have hstored := stored_mono (v := (2 * n - 1) / 2) (w := m * 2 ^ e / 10) (by linarith)
      (by linarith)
    linarith

/-- The stored tenth of a number is rounded as the exact one. -/
theorem floor_stored_tenth (h : Canonical m e) (he : e ≤ 0) :
    ⌊stored (m * 2 ^ e / 10) + 1 / 2⌋ = ⌊(m : ℚ) * 2 ^ e / 10 + 1 / 2⌋ := by
  have hpos : (0 : ℚ) < m * 2 ^ e / 10 := div_pos h.magnitude_pos (by norm_num)
  obtain ⟨n, hn⟩ : ∃ n : ℕ, ⌊(m : ℚ) * 2 ^ e / 10 + 1 / 2⌋ = n :=
    ⟨_, (Int.toNat_of_nonneg (Int.floor_nonneg.2 (by linarith))).symm⟩
  obtain ⟨hlow, hhigh⟩ := Int.floor_eq_iff.1 hn
  rw [Int.cast_natCast] at hlow hhigh
  have hsmall : n < 2 ^ 52 := by
    have hbound : (m : ℚ) * 2 ^ e < 2 ^ 53 := by
      calc (m : ℚ) * 2 ^ e < 2 ^ (e + 53) := h.magnitude_lt_pow
        _ ≤ 2 ^ (53 : ℤ) := zpow_le_zpow_right₀ (by norm_num) (by omega)
        _ = 2 ^ 53 := by norm_num
    have hcast : (n : ℚ) < 2 ^ 52 := by linarith
    exact_mod_cast hcast
  have hupper := stored_tenth_lt h he (n := n) (by linarith)
  rw [hn, Int.floor_eq_iff, Int.cast_natCast]
  exact ⟨le_stored_tenth hsmall hpos.le hlow, by linarith⟩

theorem floor_stored_valueOf_tenth {t : Float} (ht : t.isFinite = true) (hnonneg : 0 ≤ valueOf t)
    (hlt : valueOf t < 2 ^ 53) : ⌊stored (valueOf t / 10) + 1 / 2⌋ = ⌊valueOf t / 10 + 1 / 2⌋ := by
  rcases zero_or_canonical ht hnonneg with ⟨s, -, hvalue⟩ | ⟨m, e, hcanonical, -, hvalue⟩
  · rw [hvalue, zero_div, stored_zero]
  · rw [hvalue] at hlt ⊢
    refine floor_stored_tenth hcanonical ?_
    by_contra hlarge
    obtain ⟨rfl, rfl⟩ := eq_of_exponent_pos hcanonical (not_le.1 hlarge) hlt.le
    norm_num at hlt

end ThermalLabel.Binary64
