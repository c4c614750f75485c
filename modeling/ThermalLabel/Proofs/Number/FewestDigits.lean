import Mathlib
import ThermalLabel.Proofs.Number.NearestAway
import ThermalLabel.Proofs.Number.ReadsBack
/-!
# The fewest digits

The search for the shortest decimal of a number ends on the first decimal grid that has a multiple
which is stored as the number, and seventeen digits always suffice. So no decimal of fewer digits is
stored as the number, and none of as many is nearer to it than the one that is found.
-/

namespace ThermalLabel

open Binary64

variable {m a b k : Nat} {e place : Int} {q : ℚ}

/-! ## One grid -/

/-- How many steps of a decimal grid lie below a number. -/
def stepsBelow (m : Nat) (e place : Int) : Nat :=
  (binaryFraction m e place).num / (binaryFraction m e place).den

theorem le_stepsBelow_iff : b ≤ stepsBelow m e place ↔ (b : ℚ) * 10 ^ place ≤ m * 2 ^ e := by
  have hden := binaryFraction_den_pos m e place
  rw [← le_div_iff₀ (by positivity), ← binaryFraction_eq, stepsBelow, Nat.le_div_iff_mul_le hden,
    le_div_iff₀ (by positivity)]
  norm_cast

theorem lt_stepsBelow_iff : stepsBelow m e place + 1 ≤ b ↔ (m : ℚ) * 2 ^ e < b * 10 ^ place := by
  rw [Nat.succ_le_iff, ← not_le, le_stepsBelow_iff, not_le]

theorem stepsBelow_le (m : Nat) (e place : Int) :
    (stepsBelow m e place : ℚ) * 10 ^ place ≤ m * 2 ^ e :=
  le_stepsBelow_iff.1 le_rfl

theorem lt_stepsBelow_succ (m : Nat) (e place : Int) :
    (m : ℚ) * 2 ^ e < ((stepsBelow m e place + 1 : ℕ) : ℚ) * 10 ^ place :=
  lt_stepsBelow_iff.1 le_rfl

theorem abs_nearestEven_sub_le (num : Nat) {den : Nat} (hden : 0 < den) :
    |(nearestEven num den : ℚ) - num / den| ≤ 1 / 2 := by
  have hdenq : (0 : ℚ) < den := Nat.cast_pos.2 hden
  have hsplit : (num : ℚ) / den = (num / den : ℕ) + ((num % den : ℕ) : ℚ) / den := by
    have hnum : (num : ℚ) = den * ((num / den : ℕ) : ℚ) + ((num % den : ℕ) : ℚ) := by
      exact_mod_cast (Nat.div_add_mod num den).symm
    field_simp
    exact hnum
  have hlow : (0 : ℚ) ≤ ((num % den : ℕ) : ℚ) / den := by positivity
  have hhigh : ((num % den : ℕ) : ℚ) / den < 1 :=
    (div_lt_one hdenq).2 (Nat.cast_lt.2 (Nat.mod_lt num hden))
  have hbelow : 2 * (num % den) ≤ den → ((num % den : ℕ) : ℚ) / den ≤ 1 / 2 := fun h => by
    rw [div_le_div_iff₀ hdenq (by norm_num), one_mul, mul_comm]
    exact_mod_cast h
  have habove : den ≤ 2 * (num % den) → 1 / 2 ≤ ((num % den : ℕ) : ℚ) / den := fun h => by
    rw [div_le_div_iff₀ (by norm_num) hdenq, one_mul, mul_comm]
    exact_mod_cast h
  have hcases : nearestEven num den = num / den ∧ 2 * (num % den) ≤ den ∨
      nearestEven num den = num / den + 1 ∧ den ≤ 2 * (num % den) := by
    simp only [nearestEven]
    split
    · rename_i h
      exact .inl ⟨rfl, (compare_lt_iff_lt.1 h).le⟩
    · rename_i h
      exact .inr ⟨rfl, (compare_gt_iff_gt.1 h).le⟩
    · rename_i h
      have hsame := compare_eq_iff_eq.1 h
      split
      · exact .inl ⟨rfl, hsame.le⟩
      · exact .inr ⟨rfl, hsame.ge⟩
  rw [hsplit, abs_le]
  rcases hcases with ⟨hnearest, h⟩ | ⟨hnearest, h⟩
  · have hle := hbelow h
    rw [hnearest]
    constructor <;> linarith
  · have hle := habove h
    rw [hnearest]
    push_cast
    constructor <;> linarith

/-- What lies between two magnitudes that are stored as one number is stored as that number. -/
theorem stored_eq_of_between {r s w : ℚ} (hr : stored r = w) (hs : stored s = w) (hpos : 0 ≤ r)
    (hrq : r ≤ q) (hqs : q ≤ s) : stored q = w :=
  le_antisymm ((stored_mono (hpos.trans hrq) hqs).trans_eq hs)
    (hr.symm.trans_le (stored_mono hpos hrq))

theorem multiple_nonneg (a : Nat) (place : Int) : (0 : ℚ) ≤ a * 10 ^ place := by positivity

theorem multiple_le (h : a ≤ b) (place : Int) : (a : ℚ) * 10 ^ place ≤ b * 10 ^ place :=
  mul_le_mul_of_nonneg_right (Nat.cast_le.2 h) (by positivity)

section

variable (h : Canonical m e)
include h

theorem readsBack_stepsBelow (hb : readsBack m e b place = true)
    (hle : (b : ℚ) * 10 ^ place ≤ m * 2 ^ e) :
    readsBack m e (stepsBelow m e place) place = true := by
  rw [readsBack_iff_stored h] at hb ⊢
  exact stored_eq_of_between hb (stored_of_canonical h) (multiple_nonneg b place)
    (multiple_le (le_stepsBelow_iff.2 hle) place) (stepsBelow_le m e place)

theorem readsBack_stepsBelow_succ (hb : readsBack m e b place = true)
    (hlt : (m : ℚ) * 2 ^ e < b * 10 ^ place) :
    readsBack m e (stepsBelow m e place + 1) place = true := by
  rw [readsBack_iff_stored h] at hb ⊢
  exact stored_eq_of_between (stored_of_canonical h) hb h.magnitude_pos.le
    (lt_stepsBelow_succ m e place).le (multiple_le (lt_stepsBelow_iff.2 hlt) place)

/-- Where a multiple reads back, one is found. -/
theorem exists_nearestOnGrid? (hb : readsBack m e b place = true) :
    ∃ a, nearestOnGrid? m e place = some a := by
  have hside : readsBack m e (stepsBelow m e place) place = true ∨
      readsBack m e (stepsBelow m e place + 1) place = true := by
    obtain hle | hlt := le_or_gt ((b : ℚ) * 10 ^ place) (m * 2 ^ e)
    · exact .inl (readsBack_stepsBelow h hb hle)
    · exact .inr (readsBack_stepsBelow_succ h hb hlt)
  unfold stepsBelow at hside
  simp only [nearestOnGrid?]
  split
  · rename_i hbelow habove
    rw [hbelow, habove] at hside
    simp at hside
  · exact ⟨_, rfl⟩
  · exact ⟨_, rfl⟩
  · exact ⟨_, rfl⟩

/-- No multiple that reads back is nearer than the one that is found. -/
theorem nearest_of_nearestOnGrid? (ha : nearestOnGrid? m e place = some a)
    (hb : readsBack m e b place = true) :
    |(a : ℚ) * 10 ^ place - m * 2 ^ e| ≤ |(b : ℚ) * 10 ^ place - m * 2 ^ e| := by
  have hbelow := stepsBelow_le m e place
  have habove := lt_stepsBelow_succ m e place
  have hlow := readsBack_stepsBelow h hb
  have hhigh := readsBack_stepsBelow_succ h hb
  unfold stepsBelow at hbelow habove hlow hhigh
  simp only [nearestOnGrid?] at ha
  split at ha
  · cases ha
  · rename_i _ hnot
    cases ha
    obtain hle | hlt := le_or_gt ((b : ℚ) * 10 ^ place) (m * 2 ^ e)
    · exact abs_le_abs_of_nonpos (sub_nonpos.2 hbelow)
        (sub_le_sub_right (multiple_le (le_stepsBelow_iff.2 hle) place) _)
    · exact absurd (hhigh hlt) (hnot ▸ Bool.false_ne_true)
  · rename_i hnot _
    cases ha
    obtain hle | hlt := le_or_gt ((b : ℚ) * 10 ^ place) (m * 2 ^ e)
    · exact absurd (hlow hle) (hnot ▸ Bool.false_ne_true)
    · exact abs_le_abs_of_nonneg (sub_nonneg.2 habove.le)
        (sub_le_sub_right (multiple_le (lt_stepsBelow_iff.2 hlt) place) _)
  · cases ha
    have hhalf := abs_nearestEven_sub_le (binaryFraction m e place).num
      (binaryFraction_den_pos m e place)
    have hstep : (0 : ℚ) < 10 ^ place := by positivity
    rw [binaryFraction_eq] at hhalf
    have hscale (c : ℕ) : |(c : ℚ) * 10 ^ place - m * 2 ^ e| =
        |(c : ℚ) - m * 2 ^ e / 10 ^ place| * 10 ^ place := by
      rw [← abs_of_pos hstep, ← abs_mul, abs_of_pos hstep, sub_mul, div_mul_cancel₀ _ hstep.ne']
    rw [hscale, hscale]
    exact mul_le_mul_of_nonneg_right (abs_sub_le_of_le_half (i := (_ : ℕ)) hhalf b) hstep.le

/-! ## Seventeen digits -/

/-- Between the ends there is room for a step of the seventeenth digit. -/
theorem step_lt_sub : (10 : ℚ) ^ (leadingPlace m e - 17) < upperEnd m e - lowerEnd m e := by
  have hstep : (10 : ℚ) ^ (leadingPlace m e - 17) * 10 ^ 16 ≤ m * 2 ^ e := by
    refine le_trans (le_of_eq ?_) (leadingPlace_spec h.pos e).1
    rw [← zpow_natCast, ← zpow_add₀ (by norm_num)]
    congr 1
    push_cast
    ring
  have hpos : (0 : ℚ) < 2 ^ e := by positivity
  rw [upperEnd_eq]
  by_cases hpower : m = 2 ^ 52 ∧ -1074 < e
  · obtain ⟨rfl, he⟩ := hpower
    rw [lowerEnd_of_pow he, zpow_sub_one₀ (by norm_num)]
    push_cast at hstep ⊢
    linarith
  · have hm : (m : ℚ) ≤ 2 ^ 53 := by exact_mod_cast h.lt.le
    have hlarge := mul_le_mul_of_nonneg_right hm hpos.le
    rw [lowerEnd_of_not_pow h.pos hpower]
    linarith

theorem exists_readsBack_seventeen : ∃ b, readsBack m e b (leadingPlace m e - 17) = true := by
  obtain ⟨s, hs⟩ : ∃ s : ℚ, 10 ^ (leadingPlace m e - 17) = s := ⟨_, rfl⟩
  have hpos : 0 < s := hs ▸ by positivity
  have hwide := step_lt_sub h
  have hlower : 0 ≤ lowerEnd m e := mul_nonneg (Nat.cast_nonneg _) (by positivity)
  have hfloor := Nat.floor_le (div_nonneg hlower hpos.le)
  have hfloor' := Nat.lt_floor_add_one (lowerEnd m e / s)
  rw [le_div_iff₀ hpos] at hfloor
  rw [div_lt_iff₀ hpos] at hfloor'
  rw [hs] at hwide
  refine ⟨⌊lowerEnd m e / s⌋₊ + 1, readsBack_of_mem ?_ ?_⟩
  · rw [hs]
    push_cast
    exact hfloor'
  · rw [hs]
    push_cast
    linarith

end

/-! ## Decimals of few digits -/

/-- A decimal of at most `k` digits before a power of ten. -/
def HasDigits (k : Nat) (d : ℚ) : Prop := ∃ a p : ℤ, |a| < 10 ^ k ∧ d = a * 10 ^ p

/-- A decimal of `k` digits that stands for the number `w`: no decimal of fewer digits is stored as
that number, and none of as many digits that is stored as it is nearer. -/
structure ShortestWith (k : Nat) (w d : ℚ) : Prop where
  reads : storedValue d = w
  digits : HasDigits k d
  fewest : ∀ q j, storedValue q = w → HasDigits j q → k ≤ j
  nearest : ∀ q, storedValue q = w → HasDigits k q → |d - w| ≤ |q - w|

theorem hasDigits_multiple (hk : 0 < k) (h : a ≤ 10 ^ k) (place : Int) :
    HasDigits k (a * 10 ^ place) := by
  obtain hlt | rfl := h.lt_or_eq
  · refine ⟨a, place, ?_, by rw [Int.cast_natCast]⟩
    rw [Nat.abs_cast]
    exact_mod_cast hlt
  · refine ⟨1, place + k, ?_, ?_⟩
    · rw [abs_one]
      exact one_lt_pow₀ (by norm_num) hk.ne'
    · rw [add_comm, zpow_add₀ (by norm_num), zpow_natCast]
      push_cast
      ring

theorem HasDigits.exists_natCast (h : HasDigits k q) (hq : 0 ≤ q) :
    ∃ (b : ℕ) (p : ℤ), b < 10 ^ k ∧ q = b * 10 ^ p := by
  obtain ⟨a, p, ha, rfl⟩ := h
  have hpos : (0 : ℚ) < 10 ^ p := by positivity
  have hnonneg : 0 ≤ a := by
    have hcast : (0 : ℚ) ≤ a := nonneg_of_mul_nonneg_left hq hpos
    exact_mod_cast hcast
  obtain ⟨b, rfl⟩ := Int.eq_ofNat_of_zero_le hnonneg
  rw [Nat.abs_cast] at ha
  exact ⟨b, p, by exact_mod_cast ha, by rw [Int.cast_natCast]⟩

/-- Few digits reach the grid of a number only from the power of ten below it on. -/
theorem HasDigits.onGrid_or_lt (h : HasDigits k q) (hq : 0 ≤ q) (place : Int) :
    (∃ c : ℕ, q = c * 10 ^ place) ∨ q < 10 ^ (place + k - 1) := by
  obtain ⟨b, p, hb, rfl⟩ := h.exists_natCast hq
  obtain hle | hlt := le_or_gt place p
  · obtain ⟨i, rfl⟩ : ∃ i : ℕ, p = place + i := ⟨(p - place).toNat, by omega⟩
    refine .inl ⟨b * 10 ^ i, ?_⟩
    rw [zpow_add₀ (by norm_num), zpow_natCast]
    push_cast
    ring
  · right
    have hb' : (b : ℚ) < 10 ^ (k : ℤ) := by exact_mod_cast hb
    calc (b : ℚ) * 10 ^ p < 10 ^ (k : ℤ) * 10 ^ p := mul_lt_mul_of_pos_right hb' (by positivity)
      _ = 10 ^ (k + p) := (zpow_add₀ (by norm_num) _ _).symm
      _ ≤ 10 ^ (place + k - 1) := zpow_le_zpow_right₀ (by norm_num) (by omega)

theorem pow_pred_eq (hk : 0 < k) (place : Int) :
    (10 : ℚ) ^ (place + k - 1) = (10 ^ (k - 1) : ℕ) * 10 ^ place := by
  have hexponent : place + k - 1 = ((k - 1 : ℕ) : ℤ) + place := by omega
  rw [hexponent, zpow_add₀ (by norm_num), zpow_natCast]
  push_cast
  rfl

theorem pow_leadingPlace (k : Nat) :
    (10 : ℚ) ^ leadingPlace m e = (10 ^ k : ℕ) * 10 ^ (leadingPlace m e - k) := by
  rw [Nat.cast_pow, Nat.cast_ofNat, ← zpow_natCast, ← zpow_add₀ (by norm_num), add_sub_cancel]

theorem storedValue_eq_iff_of_pos {w : ℚ} (hw : 0 < w) :
    storedValue q = w ↔ 0 ≤ q ∧ stored q = w := by
  obtain hq | hq := lt_or_ge q 0
  · have hneg := neg_nonpos.2 (stored_nonneg (neg_nonneg.2 hq.le))
    rw [storedValue, if_pos hq]
    exact iff_of_false (hneg.trans_lt hw).ne fun h => absurd h.1 (not_le.2 hq)
  · rw [storedValue_of_nonneg hq, and_iff_right hq]

/-- A decimal of few digits that is stored as a number is on the grid of as many digits, or one that
is on it is nearer. -/
theorem exists_readsBack_of_hasDigits (h : Canonical m e) (hk : 0 < k) (hq : 0 ≤ q)
    (hstored : stored q = m * 2 ^ e) (hdigits : HasDigits k q) :
    ∃ c : ℕ, readsBack m e c (leadingPlace m e - k) = true ∧
      (q = c * 10 ^ (leadingPlace m e - k) ∨
        HasDigits k (c * 10 ^ (leadingPlace m e - k)) ∧
          |(c : ℚ) * 10 ^ (leadingPlace m e - k) - m * 2 ^ e| < |q - m * 2 ^ e|) := by
  rcases hdigits.onGrid_or_lt hq (leadingPlace m e - k) with ⟨c, rfl⟩ | hlt
  · exact ⟨c, (readsBack_iff_stored h).2 hstored, .inl rfl⟩
  · have hleading := (leadingPlace_spec h.pos e).1
    have hcancel : leadingPlace m e - k + k - 1 = leadingPlace m e - 1 := by ring
    have hpower := pow_pred_eq hk (leadingPlace m e - k)
    have hfew : 10 ^ (k - 1) ≤ 10 ^ k := Nat.pow_le_pow_right (by decide) (Nat.sub_le k 1)
    rw [hcancel] at hpower hlt
    rw [hpower] at hlt hleading
    refine ⟨10 ^ (k - 1), ?_, .inr ⟨hasDigits_multiple hk hfew _, ?_⟩⟩
    · rw [readsBack_iff_stored h]
      exact stored_eq_of_between hstored (stored_of_canonical h) hq hlt.le hleading
    · rw [abs_sub_comm, abs_sub_comm q, abs_of_nonneg (sub_nonneg.2 hleading),
        abs_of_nonneg (sub_nonneg.2 (hlt.le.trans hleading))]
      exact sub_lt_sub_left hlt _

theorem eq_zero_of_hasDigits_zero (h : HasDigits 0 q) : q = 0 := by
  obtain ⟨a, p, ha, rfl⟩ := h
  rw [pow_zero, Int.abs_lt_one_iff] at ha
  rw [ha, Int.cast_zero, zero_mul]

/-- The decimal that is found stands for its number. -/
theorem exists_shortestWith (h : Canonical m e) : ∃ k, 0 < k ∧
    ShortestWith k (m * 2 ^ e) (shortestDecimal false m e).magnitude := by
  obtain ⟨b, hb⟩ := exists_readsBack_seventeen h
  obtain ⟨c, hc⟩ := exists_nearestOnGrid? h hb
  have hlast : leadingPlace m e - 17 = leadingPlace m e - 1 - (16 : ℕ) := by push_cast; ring
  rw [hlast] at hc
  obtain ⟨n, -, a, hfound, ha, hnone⟩ := exists_first_grid (by decide) hc
  have hplace (j : ℕ) : leadingPlace m e - 1 - j = leadingPlace m e - (j + 1 : ℕ) := by
    push_cast
    ring
  rw [hplace] at hfound ha
  have hread := readsBack_of_nearestOnGrid? ha
  have hsize : a ≤ 10 ^ (n + 1) := by
    refine (le_of_nearestOnGrid? ha).trans (lt_stepsBelow_iff.2 ?_)
    exact pow_leadingPlace (n + 1) ▸ (leadingPlace_spec h.pos e).2
  have hpositive := h.magnitude_pos
  rw [shortestDecimal_of_pos false h.pos, hfound]
  refine ⟨n + 1, Nat.succ_pos n, ?_, hasDigits_multiple (Nat.succ_pos n) hsize _, ?_, ?_⟩
  · rw [storedValue_of_nonneg (multiple_nonneg a _)]
    exact (readsBack_iff_stored h).1 hread
  · intro q j hq hj
    obtain ⟨hnonneg, hstored⟩ := (storedValue_eq_iff_of_pos hpositive).1 hq
    by_contra hlt
    cases j with
    | zero =>
      rw [eq_zero_of_hasDigits_zero hj, stored_zero] at hstored
      exact hpositive.ne hstored
    | succ j =>
      obtain ⟨c, hc, -⟩ := exists_readsBack_of_hasDigits h (Nat.succ_pos j) hnonneg hstored hj
      obtain ⟨a, ha⟩ := exists_nearestOnGrid? h hc
      rw [← hplace, hnone j (by omega)] at ha
      cases ha
  · intro q hq hk
    obtain ⟨hnonneg, hstored⟩ := (storedValue_eq_iff_of_pos hpositive).1 hq
    obtain ⟨c, hc, hnear⟩ := exists_readsBack_of_hasDigits h (Nat.succ_pos n) hnonneg hstored hk
    have hfar := nearest_of_nearestOnGrid? h ha hc
    obtain rfl | ⟨-, hlt⟩ := hnear
    · exact hfar
    · exact hfar.trans hlt.le

end ThermalLabel
