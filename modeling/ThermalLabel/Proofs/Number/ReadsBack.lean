import Mathlib
import ThermalLabel.Proofs.Number.Difference
import ThermalLabel.Proofs.Number.Shortest
/-!
# What is stored as a number

A magnitude is stored as a number exactly when it lies between the points halfway to its neighbours,
and the points themselves are stored as the number whose mantissa is even. So the decimals that read
back as a number are those that are stored as it.
-/

namespace ThermalLabel

namespace Binary64

variable {v q : ℚ} {m : Nat} {e g : Int}

/-- An integer is the nearest one up to a half, and at a half if it is even. -/
theorem nearest_eq_iff {n : ℤ} : nearest v = n ↔
    if n % 2 = 0 then (n : ℚ) - 1 / 2 ≤ v ∧ v ≤ n + 1 / 2
    else (n : ℚ) - 1 / 2 < v ∧ v < n + 1 / 2 := by
  have hlow : (n : ℚ) - 1 / 2 ≤ v ↔ 2 * n - 1 ≤ ⌊2 * v⌋ := by
    rw [Int.le_floor]
    push_cast
    constructor <;> intro h <;> linarith
  have hlow' : (n : ℚ) - 1 / 2 < v ↔ 2 * n - 1 < ⌈2 * v⌉ := by
    rw [Int.lt_ceil]
    push_cast
    constructor <;> intro h <;> linarith
  have hhigh : v ≤ (n : ℚ) + 1 / 2 ↔ ⌈2 * v⌉ ≤ 2 * n + 1 := by
    rw [Int.ceil_le]
    push_cast
    constructor <;> intro h <;> linarith
  have hhigh' : v < (n : ℚ) + 1 / 2 ↔ ⌊2 * v⌋ < 2 * n + 1 := by
    rw [Int.floor_lt]
    push_cast
    constructor <;> intro h <;> linarith
  have hle := Int.floor_le_ceil (2 * v)
  have hgap := Int.ceil_le_floor_add_one (2 * v)
  rw [hlow, hlow', hhigh, hhigh', nearest, nearestOfHalves, halves]
  split_ifs <;> omega

/-! ## One grid -/

theorem gridExponent_eq (hv : 0 < v) (hmin : -1074 ≤ g) (hlow : 2 ^ (g + 52) ≤ v ∨ g = -1074)
    (hhigh : v < 2 ^ (g + 53)) : gridExponent v = g := by
  have hlt : Int.log 2 v < g + 53 :=
    (Int.lt_zpow_iff_log_lt (b := 2) (by norm_num) hv).1 (by exact_mod_cast hhigh)
  unfold gridExponent
  obtain hlow | rfl := hlow
  · have hle : g + 52 ≤ Int.log 2 v :=
      (Int.zpow_le_iff_le_log (b := 2) (by norm_num) hv).1 (by exact_mod_cast hlow)
    omega
  · omega

theorem roundedMagnitude_pow (hmin : -1074 ≤ g) :
    roundedMagnitude (2 ^ (g + 52)) = 2 ^ (g + 52) := by
  have hgrid : gridExponent (2 ^ (g + 52)) = g :=
    gridExponent_eq (by positivity) hmin (.inl le_rfl)
      (zpow_lt_zpow_right₀ (by norm_num) (by omega))
  have hsplit : (2 : ℚ) ^ (g + 52) = ((2 ^ 52 : ℤ) : ℚ) * 2 ^ g := by
    rw [add_comm, zpow_add₀ (by norm_num)]
    norm_num
  rw [roundedMagnitude, hgrid, hsplit, mul_div_cancel_right₀ _ (by positivity), nearest_intCast]

/-- Where one grid ends the next one begins, and either has the power of two between them. -/
theorem roundedMagnitude_eq (hv : 0 ≤ v) (hmin : -1074 ≤ g) (hlow : 2 ^ (g + 52) ≤ v ∨ g = -1074)
    (hhigh : v ≤ 2 ^ (g + 53)) : roundedMagnitude v = nearest (v / 2 ^ g) * 2 ^ g := by
  obtain rfl | hpos := hv.eq_or_lt
  · have hzero := nearest_intCast 0
    rw [Int.cast_zero] at hzero
    rw [roundedMagnitude_zero, zero_div, hzero, Int.cast_zero, zero_mul]
  · obtain rfl | hlt := hhigh.eq_or_lt
    · have hnext : g + 53 = g + 1 + 52 := by ring
      have hsplit : (2 : ℚ) ^ (g + 53) = ((2 ^ 53 : ℤ) : ℚ) * 2 ^ g := by
        rw [add_comm, zpow_add₀ (by norm_num)]
        norm_num
      have hpower := roundedMagnitude_pow (g := g + 1) (by omega)
      rw [← hnext] at hpower
      rw [hpower, hsplit, mul_div_cancel_right₀ _ (by positivity), nearest_intCast]
    · rw [roundedMagnitude, gridExponent_eq hpos hmin hlow hlt]

theorem stored_eq_iff_nearest (hv : 0 ≤ v) (hmin : -1074 ≤ g) (hlow : 2 ^ (g + 52) ≤ v ∨ g = -1074)
    (hhigh : v ≤ 2 ^ (g + 53)) {n : ℤ} (hn : (n : ℚ) * 2 ^ g < 2 ^ 1024) :
    stored v = n * 2 ^ g ↔ nearest (v / 2 ^ g) = n := by
  have hsame : roundedMagnitude v = n * 2 ^ g ↔ nearest (v / 2 ^ g) = n := by
    rw [roundedMagnitude_eq hv hmin hlow hhigh, mul_left_inj' (by positivity), Int.cast_inj]
  rw [← hsame]
  refine ⟨fun h => ?_, fun h => (min_eq_left (h.trans_lt hn).le).trans h⟩
  obtain hle | hlt := le_or_gt (roundedMagnitude v) (2 ^ 1024)
  · exact (min_eq_left hle).symm.trans h
  · exact absurd (h.symm.trans (min_eq_right hlt.le)) hn.ne

/-- Nothing is stored beyond a power of two that it does not exceed. -/
theorem stored_le_pow (hmin : -1074 ≤ g) (hv : 0 ≤ v) (h : v ≤ 2 ^ (g + 52)) :
    stored v ≤ 2 ^ (g + 52) :=
  (stored_mono hv h).trans ((min_le_left _ _).trans (roundedMagnitude_pow hmin).le)

/-! ## Between the ends -/

theorem lowerEnd_of_pow (he : -1074 < e) :
    lowerEnd (2 ^ 52) e = (2 ^ 53 - 1 / 2) * 2 ^ (e - 1) := by
  have hquarters : lowerQuarters (2 ^ 52) e = 2 ^ 54 - 1 := if_pos ⟨rfl, he⟩
  rw [lowerEnd, hquarters, quarter_eq, zpow_sub_one₀ (by norm_num)]
  push_cast
  ring

theorem lowerEnd_of_not_pow (hm : 0 < m) (h : ¬(m = 2 ^ 52 ∧ -1074 < e)) :
    lowerEnd m e = (m - 1 / 2) * 2 ^ e := by
  have hquarters : lowerQuarters m e = 4 * m - 2 := if_neg h
  rw [lowerEnd, hquarters, quarter_eq, Nat.cast_sub (by omega)]
  push_cast
  ring

theorem upperEnd_eq (m : Nat) (e : Int) : upperEnd m e = (m + 1 / 2) * 2 ^ e := by
  rw [upperEnd, quarter_eq]
  ring

theorem Canonical.pow_le_or (h : Canonical m e) : (2 : ℚ) ^ (e + 52) ≤ m * 2 ^ e ∨ e = -1074 := by
  refine h.full.imp_left fun hfull => ?_
  rw [add_comm, zpow_add₀ (by norm_num)]
  exact mul_le_mul_of_nonneg_right (by exact_mod_cast hfull) (by positivity)

theorem stored_eq_iff_le_upperEnd (h : Canonical m e) (hle : m * 2 ^ e ≤ q) :
    stored q = m * 2 ^ e ↔ if m % 2 = 0 then q ≤ upperEnd m e else q < upperEnd m e := by
  have hq : 0 ≤ q := h.magnitude_pos.le.trans hle
  have hstep : (0 : ℚ) < 2 ^ e := by positivity
  by_cases hnear : q ≤ 2 ^ (e + 53)
  · have hlow : (2 : ℚ) ^ (e + 52) ≤ q ∨ e = -1074 := h.pow_le_or.imp_left (le_trans · hle)
    have hnearest := stored_eq_iff_nearest hq h.minExponent_le hlow hnear (n := m) (by
      rw [Int.cast_natCast]
      exact h.magnitude_lt)
    have hself : (m : ℚ) ≤ q / 2 ^ e := (le_div_iff₀ hstep).2 hle
    have hbelow : (m : ℚ) - 1 / 2 < q / 2 ^ e := by linarith
    have hparity : (m : ℤ) % 2 = 0 ↔ m % 2 = 0 := by omega
    rw [Int.cast_natCast] at hnearest
    rw [hnearest, nearest_eq_iff, Int.cast_natCast, upperEnd_eq, ← div_le_iff₀ hstep,
      ← div_lt_iff₀ hstep]
    simp only [hparity, hbelow, hbelow.le, true_and]
  · rw [not_le] at hnear
    have hm : (m : ℚ) + 1 ≤ 2 ^ (53 : ℤ) := by exact_mod_cast h.lt
    have hend : upperEnd m e < q := by
      rw [upperEnd_eq]
      refine lt_trans ?_ hnear
      rw [add_comm e, zpow_add₀ (by norm_num)]
      exact mul_lt_mul_of_pos_right (by linarith) hstep
    have hbeyond : (m : ℚ) * 2 ^ e < stored q := by
      have hpower := roundedMagnitude_pow (g := e + 1) (by linarith [h.minExponent_le])
      have hnext : e + 1 + 52 = e + 53 := by ring
      rw [hnext] at hpower
      refine lt_of_lt_of_le ?_ (stored_mono (by positivity) hnear.le)
      exact lt_min (h.magnitude_lt_pow.trans_eq hpower.symm) h.magnitude_lt
    have hnot : ¬(if m % 2 = 0 then q ≤ upperEnd m e else q < upperEnd m e) := by
      split
      · exact hend.not_ge
      · exact hend.not_gt
    exact iff_of_false hbeyond.ne' hnot

theorem stored_eq_iff_lowerEnd_le (h : Canonical m e) (hq : 0 ≤ q) (hle : q ≤ m * 2 ^ e) :
    stored q = m * 2 ^ e ↔ if m % 2 = 0 then lowerEnd m e ≤ q else lowerEnd m e < q := by
  have hstep : (0 : ℚ) < 2 ^ e := by positivity
  have hmin := h.minExponent_le
  by_cases hpower : m = 2 ^ 52 ∧ -1074 < e
  · -- Below a power of two the steps are half as large.
    obtain ⟨rfl, he⟩ := hpower
    have hhalf : (0 : ℚ) < 2 ^ (e - 1) := by positivity
    have hvalue : ((2 ^ 52 : ℕ) : ℚ) * 2 ^ e = ((2 ^ 53 : ℤ) : ℚ) * 2 ^ (e - 1) := by
      rw [zpow_sub_one₀ (by norm_num)]
      push_cast
      ring
    have hlarge := h.magnitude_lt
    rw [lowerEnd_of_pow he, if_pos (by decide)]
    rw [hvalue] at hle hlarge ⊢
    by_cases hnear : (2 : ℚ) ^ (e - 1 + 52) ≤ q
    · have hhigh : q ≤ 2 ^ (e - 1 + 53) := by
        rw [add_comm, zpow_add₀ (by norm_num)]
        exact_mod_cast hle
      have hself : q / 2 ^ (e - 1) ≤ ((2 ^ 53 : ℤ) : ℚ) := (div_le_iff₀ hhalf).2 hle
      rw [stored_eq_iff_nearest hq (by omega) (.inl hnear) hhigh hlarge, nearest_eq_iff,
        if_pos (by decide), le_div_iff₀ hhalf, and_iff_left (by linarith)]
      push_cast
      rfl
    · rw [not_le] at hnear
      have hbelow := stored_le_pow (by omega) hq hnear.le
      rw [add_comm, zpow_add₀ (by norm_num)] at hnear hbelow
      push_cast
      norm_num at hnear hbelow ⊢
      exact iff_of_false (by nlinarith) (by nlinarith)
  · rw [lowerEnd_of_not_pow h.pos hpower]
    by_cases hnear : (2 : ℚ) ^ (e + 52) ≤ q ∨ e = -1074
    · have hnearest := stored_eq_iff_nearest hq hmin hnear (hle.trans h.magnitude_lt_pow.le)
        (n := m) (by
          rw [Int.cast_natCast]
          exact h.magnitude_lt)
      have hself : q / 2 ^ e ≤ (m : ℚ) := (div_le_iff₀ hstep).2 hle
      have habove : q / 2 ^ e < (m : ℚ) + 1 / 2 := by linarith
      have hparity : (m : ℤ) % 2 = 0 ↔ m % 2 = 0 := by omega
      rw [Int.cast_natCast] at hnearest
      rw [hnearest, nearest_eq_iff, Int.cast_natCast, ← le_div_iff₀ hstep, ← lt_div_iff₀ hstep]
      simp only [hparity, habove, habove.le, and_true]
    · rw [not_or, not_le] at hnear
      obtain ⟨hnear, he⟩ := hnear
      have hm : 2 ^ 52 + 1 ≤ m := by
        have hfull := h.full.resolve_right he
        omega
      have hm' : (2 : ℚ) ^ 52 + 1 ≤ m := by exact_mod_cast hm
      have hgap : ((2 : ℚ) ^ 52 + 1) * 2 ^ e ≤ m * 2 ^ e := mul_le_mul_of_nonneg_right hm' hstep.le
      have hbelow := stored_le_pow hmin hq hnear.le
      rw [add_comm, zpow_add₀ (by norm_num), zpow_ofNat] at hnear hbelow
      have hnot : ¬(if m % 2 = 0 then (m - 1 / 2) * 2 ^ e ≤ q else (m - 1 / 2) * 2 ^ e < q) := by
        split <;> linarith
      exact iff_of_false (by linarith) hnot

/-- What is stored as a number lies between the ends. -/
theorem stored_eq_iff_mem (h : Canonical m e) (hq : 0 ≤ q) : stored q = m * 2 ^ e ↔
    if m % 2 = 0 then lowerEnd m e ≤ q ∧ q ≤ upperEnd m e
    else lowerEnd m e < q ∧ q < upperEnd m e := by
  have hlower := lowerEnd_lt h.pos (e := e)
  have hupper := lt_upperEnd (m := m) (e := e)
  obtain hle | hle := le_total q (m * 2 ^ e)
  · have habove := hle.trans_lt hupper
    rw [stored_eq_iff_lowerEnd_le h hq hle, and_iff_left habove, and_iff_left habove.le]
  · have hbelow := hlower.trans_le hle
    rw [stored_eq_iff_le_upperEnd h hle, and_iff_right hbelow, and_iff_right hbelow.le]

end Binary64

open Binary64

/-- The decimals that read back as a number are those that are stored as it. -/
theorem readsBack_iff_stored {m a : Nat} {e place : Int} (h : Canonical m e) :
    readsBack m e a place = true ↔ stored (a * 10 ^ place) = m * 2 ^ e := by
  rw [readsBack_iff, stored_eq_iff_mem h (by positivity)]

end ThermalLabel
