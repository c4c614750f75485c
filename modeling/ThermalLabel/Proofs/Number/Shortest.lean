import Mathlib
import ThermalLabel.Proofs.Number.Magnitude
import ThermalLabel.Proofs.Number.Value
/-!
# The shortest decimal is near

What reads back as a number lies between the points halfway to its neighbours. So the shortest
decimal of a number is on the same side of every other number as the number itself. It is the
number itself where that is a multiple of a half and has its last digit below the point.
-/

namespace ThermalLabel

open Binary64

variable {m n a : Nat} {e f place : Int}

/-- A power by its parts above and below one. -/
theorem zpow_eq_div {b : ℚ} (hb : b ≠ 0) (z : ℤ) : b ^ z = b ^ z.toNat / b ^ (-z).toNat := by
  have hz : z = z.toNat - (-z).toNat := by omega
  conv_lhs => rw [hz, zpow_sub₀ hb, zpow_natCast, zpow_natCast]

/-! ## Decimals as numbers -/

/-- The value of a decimal but for its sign. -/
def Decimal.magnitude (d : Decimal) : ℚ := d.digits * 10 ^ d.exponent

theorem Decimal.wholeMagnitude_eq (d : Decimal) :
    (d.wholeMagnitude : ℤ) = ⌊d.magnitude + 1 / 2⌋ := by
  have hunit : 0 < 10 ^ (-d.exponent).toNat := Nat.pow_pos (by decide)
  have hmagnitude : d.magnitude + 1 / 2 =
      ((2 * (d.digits * 10 ^ d.exponent.toNat) + 10 ^ (-d.exponent).toNat : ℕ) : ℚ) /
        (2 * 10 ^ (-d.exponent).toNat : ℕ) := by
    rw [magnitude, zpow_eq_div (by norm_num)]
    push_cast
    field_simp
  rw [hmagnitude, Rat.floor_natCast_div_natCast]
  rfl

theorem decimalLE_iff : decimalLE a place n e = true ↔ (a : ℚ) * 10 ^ place ≤ n * 2 ^ e := by
  rw [zpow_eq_div (by norm_num) place, zpow_eq_div (by norm_num) e, ← mul_div_assoc,
    ← mul_div_assoc, div_le_div_iff₀ (by positivity) (by positivity), decimalLE, decide_eq_true_eq]
  norm_cast

theorem binaryLE_iff : binaryLE n e a place = true ↔ (n : ℚ) * 2 ^ e ≤ a * 10 ^ place := by
  rw [zpow_eq_div (by norm_num) place, zpow_eq_div (by norm_num) e, ← mul_div_assoc,
    ← mul_div_assoc, div_le_div_iff₀ (by positivity) (by positivity), binaryLE, decide_eq_true_eq]
  norm_cast

/-- The fraction of a number at a place of its decimals. -/
theorem binaryFraction_eq (m : Nat) (e place : Int) :
    ((binaryFraction m e place).num : ℚ) / (binaryFraction m e place).den =
      m * 2 ^ e / 10 ^ place := by
  rw [zpow_eq_div (by norm_num) e, zpow_eq_div (by norm_num) place]
  simp only [binaryFraction, Nat.pow_eq]
  push_cast
  field_simp

/-! ## What reads back -/

/-- Halfway to the neighbour below. -/
def lowerEnd (m : Nat) (e : Int) : ℚ := lowerQuarters m e * 2 ^ (e - 2)

/-- Halfway to the neighbour above. -/
def upperEnd (m : Nat) (e : Int) : ℚ := (4 * m + 2) * 2 ^ (e - 2)

theorem quarter_eq (e : Int) : (2 : ℚ) ^ (e - 2) = 2 ^ e / 4 := by
  rw [zpow_sub₀ (by norm_num)]
  norm_num

theorem lowerEnd_lt (hm : 0 < m) : lowerEnd m e < m * 2 ^ e := by
  have hquarters : lowerQuarters m e < 4 * m := by
    unfold lowerQuarters
    split <;> omega
  have hlt : (lowerQuarters m e : ℚ) < 4 * m := by exact_mod_cast hquarters
  have hpos : (0 : ℚ) < 2 ^ e := by positivity
  rw [lowerEnd, quarter_eq]
  nlinarith

theorem lt_upperEnd : (m : ℚ) * 2 ^ e < upperEnd m e := by
  have hpos : (0 : ℚ) < 2 ^ e := by positivity
  rw [upperEnd, quarter_eq]
  linarith

theorem le_lowerEnd (hm : 0 < m) : (m - 1 / 2) * (2 : ℚ) ^ e ≤ lowerEnd m e := by
  have hquarters : 4 * m ≤ lowerQuarters m e + 2 := by
    unfold lowerQuarters
    split <;> omega
  have hle : 4 * (m : ℚ) ≤ lowerQuarters m e + 2 := by exact_mod_cast hquarters
  have hpos : (0 : ℚ) < 2 ^ e := by positivity
  rw [lowerEnd, quarter_eq]
  nlinarith

/-- The ends read back as a number whose mantissa is even. -/
theorem readsBack_iff : readsBack m e a place = true ↔
    if m % 2 = 0 then lowerEnd m e ≤ a * 10 ^ place ∧ a * 10 ^ place ≤ upperEnd m e
    else lowerEnd m e < a * 10 ^ place ∧ a * 10 ^ place < upperEnd m e := by
  have hupper : ((4 * m + 2 : Nat) : ℚ) * 2 ^ (e - 2) = upperEnd m e := by
    rw [upperEnd]
    push_cast
    rfl
  simp only [readsBack]
  split
  · rw [Bool.and_eq_true, binaryLE_iff, decimalLE_iff, hupper]
    rfl
  · rw [Bool.and_eq_true, Bool.not_eq_true', Bool.not_eq_true', ← Bool.not_eq_true,
      ← Bool.not_eq_true, decimalLE_iff, binaryLE_iff, hupper, not_le, not_le]
    rfl

theorem mem_of_readsBack (h : readsBack m e a place = true) :
    lowerEnd m e ≤ a * 10 ^ place ∧ a * 10 ^ place ≤ upperEnd m e := by
  rw [readsBack_iff] at h
  split at h
  · exact h
  · exact ⟨h.1.le, h.2.le⟩

theorem readsBack_of_mem (hlower : lowerEnd m e < a * 10 ^ place)
    (hupper : (a : ℚ) * 10 ^ place < upperEnd m e) : readsBack m e a place = true := by
  rw [readsBack_iff]
  split
  · exact ⟨hlower.le, hupper.le⟩
  · exact ⟨hlower, hupper⟩

/-- Between two numbers there is room for what reads back as either. -/
theorem upperEnd_le_lowerEnd (h : Canonical m e) (h' : Canonical n f)
    (hlt : (m : ℚ) * 2 ^ e < n * 2 ^ f) : upperEnd m e ≤ lowerEnd n f := by
  rcases lt_trichotomy e f with hef | rfl | hef
  · have hfull : 2 ^ 52 ≤ n := h'.full.resolve_right (by linarith [h.minExponent_le])
    have hquarters : 2 ^ 54 ≤ lowerQuarters n f + 1 := by
      have hmin := h.minExponent_le
      simp only [lowerQuarters, Nat.pow_eq]
      split <;> omega
    have hexponent : (2 : ℚ) ^ (e - 2) ≤ 2 ^ (f - 2) / 2 := by
      rw [le_div_iff₀ (by norm_num), ← zpow_add_one₀ (by norm_num)]
      exact zpow_le_zpow_right₀ (by norm_num) (by omega)
    have hm : (m : ℚ) + 1 ≤ 2 ^ 53 := by exact_mod_cast h.lt
    have hn : (2 : ℚ) ^ 54 ≤ lowerQuarters n f + 1 := by exact_mod_cast hquarters
    calc upperEnd m e ≤ (4 * m + 2) * (2 ^ (f - 2) / 2) :=
          mul_le_mul_of_nonneg_left hexponent (by positivity)
      _ = (2 * m + 1) * 2 ^ (f - 2) := by ring
      _ ≤ lowerQuarters n f * 2 ^ (f - 2) :=
          mul_le_mul_of_nonneg_right (by linarith) (by positivity)
  · have hmn : m + 1 ≤ n := by
      have hcast := lt_of_mul_lt_mul_right hlt (by positivity)
      exact_mod_cast hcast
    have hmn' : (m : ℚ) + 1 ≤ n := by exact_mod_cast hmn
    refine le_trans ?_ (le_lowerEnd h'.pos)
    have hpos : (0 : ℚ) < 2 ^ e := by positivity
    rw [upperEnd, quarter_eq]
    nlinarith
  · exact absurd (h'.magnitude_lt_of_exponent_lt h hef) hlt.not_gt

/-! ## What is found on a grid -/

theorem readsBack_of_nearestOnGrid? (h : nearestOnGrid? m e place = some a) :
    readsBack m e a place = true := by
  simp only [nearestOnGrid?] at h
  split at h
  · cases h
  · rename_i hbelow _
    cases h
    exact hbelow
  · rename_i _ habove
    cases h
    exact habove
  · rename_i hbelow habove
    cases h
    simp only [nearestEven]
    split
    · exact hbelow
    · exact habove
    · split
      · exact hbelow
      · exact habove

theorem nearestEven_le (num den : Nat) : nearestEven num den ≤ num / den + 1 := by
  simp only [nearestEven]
  split
  · omega
  · exact le_rfl
  · split <;> omega

/-- What is found on a grid lies at most one step above the number. -/
theorem le_of_nearestOnGrid? (h : nearestOnGrid? m e place = some a) :
    a ≤ (binaryFraction m e place).num / (binaryFraction m e place).den + 1 := by
  simp only [nearestOnGrid?] at h
  split at h
  · cases h
  · cases h
    exact Nat.le_succ _
  · cases h
    exact le_rfl
  · cases h
    exact nearestEven_le _ _

/-- A number that is on a grid is found there. -/
theorem nearestOnGrid?_of_eq (hm : 0 < m) (h : (m : ℚ) * 2 ^ e = a * 10 ^ place) :
    nearestOnGrid? m e place = some a := by
  have hden := binaryFraction_den_pos m e place
  have hnum : (binaryFraction m e place).num = a * (binaryFraction m e place).den := by
    have hquotient := binaryFraction_eq m e place
    rw [h, mul_div_cancel_right₀ _ (by positivity), div_eq_iff (by positivity)] at hquotient
    exact_mod_cast hquotient
  have hdiv : (binaryFraction m e place).num / (binaryFraction m e place).den = a := by
    rw [hnum, Nat.mul_div_cancel a hden]
  have hmod : (binaryFraction m e place).num % (binaryFraction m e place).den = 0 := by
    rw [hnum, Nat.mul_mod_left]
  have hself : readsBack m e a place = true :=
    readsBack_of_mem (h ▸ lowerEnd_lt hm) (h ▸ lt_upperEnd)
  have heven : nearestEven (binaryFraction m e place).num (binaryFraction m e place).den = a := by
    rw [nearestEven, hdiv, hmod, Nat.mul_zero, compare_lt_iff_lt.2 hden]
  simp only [nearestOnGrid?, hdiv, hself, heven]
  cases readsBack m e (a + 1) place <;> rfl

/-! ## The search -/

/-- The digits found read back, or are those of the number written out. -/
theorem shortestDigits_cases (m : Nat) (e : Int) :
    readsBack m e (shortestDigits m e).1 (shortestDigits m e).2 = true ∨
      shortestDigits m e = fullDecimal m e := by
  simp only [shortestDigits]
  split
  · rename_i found hfound
    obtain ⟨k, -, hgrid⟩ := List.exists_of_findSome?_eq_some hfound
    obtain ⟨a, ha, rfl⟩ := Option.map_eq_some_iff.1 hgrid
    exact .inl (readsBack_of_nearestOnGrid? ha)
  · exact .inr rfl

theorem fullDecimal_eq (m : Nat) (e : Int) :
    ((fullDecimal m e).1 : ℚ) * 10 ^ (fullDecimal m e).2 = m * 2 ^ e := by
  unfold fullDecimal
  split
  · rename_i he
    obtain ⟨k, rfl⟩ := Int.eq_ofNat_of_zero_le he
    simp
  · rename_i he
    obtain ⟨k, rfl⟩ : ∃ k : ℕ, e = -k := ⟨(-e).toNat, by omega⟩
    have hten : (10 : ℚ) = 5 * 2 := by norm_num
    simp only [neg_neg, Int.toNat_natCast, Nat.pow_eq, zpow_neg, zpow_natCast, hten, mul_pow]
    push_cast
    field_simp

theorem shortestDecimal_of_pos (negative : Bool) (hm : 0 < m) (e : Int) :
    (shortestDecimal negative m e).magnitude =
      (shortestDigits m e).1 * 10 ^ (shortestDigits m e).2 := by
  rw [shortestDecimal, if_neg hm.ne']
  rfl

theorem shortestDecimal_mem (negative : Bool) (hm : 0 < m) (e : Int) :
    lowerEnd m e ≤ (shortestDecimal negative m e).magnitude ∧
      (shortestDecimal negative m e).magnitude ≤ upperEnd m e := by
  rw [shortestDecimal_of_pos negative hm]
  rcases shortestDigits_cases m e with h | h
  · exact mem_of_readsBack h
  · rw [h, fullDecimal_eq]
    exact ⟨(lowerEnd_lt hm).le, lt_upperEnd.le⟩

/-- The shortest decimal of a number is below every larger number. -/
theorem shortestDecimal_lt (negative : Bool) (h : Canonical m e) (h' : Canonical n f)
    (hlt : (m : ℚ) * 2 ^ e < n * 2 ^ f) :
    (shortestDecimal negative m e).magnitude < n * 2 ^ f :=
  ((shortestDecimal_mem negative h.pos e).2.trans (upperEnd_le_lowerEnd h h' hlt)).trans_lt
    (lowerEnd_lt h'.pos)

/-- The shortest decimal of a number is above every smaller number. -/
theorem lt_shortestDecimal (negative : Bool) (h : Canonical m e) (h' : Canonical n f)
    (hlt : (m : ℚ) * 2 ^ e < n * 2 ^ f) :
    m * 2 ^ e < (shortestDecimal negative n f).magnitude :=
  lt_upperEnd.trans_le
    ((upperEnd_le_lowerEnd h h' hlt).trans (shortestDecimal_mem negative h'.pos f).1)

/-! ## The first grid -/

theorem digitCount_eq (n : Nat) : digitCount n = Nat.log 10 n + 1 := by
  induction n using Nat.strong_induction_on with
  | _ n ih =>
    rw [digitCount]
    split
    · rename_i hlt
      rw [Nat.log_of_lt hlt]
    · rename_i hle
      rw [ih (n / 10) (by omega), Nat.log_of_one_lt_of_le (by decide) (not_lt.1 hle)]

theorem leadingPlace_spec (hm : 0 < m) (e : Int) :
    (10 : ℚ) ^ (leadingPlace m e - 1) ≤ m * 2 ^ e ∧ (m : ℚ) * 2 ^ e < 10 ^ leadingPlace m e := by
  have hquotient := binaryFraction_eq m e 0
  have hden := binaryFraction_den_pos m e 0
  have hvalue := magnitude_pos hm e
  rw [zpow_zero, div_one] at hquotient
  rw [← hquotient] at hvalue ⊢
  simp only [leadingPlace]
  generalize (binaryFraction m e 0).num = num at hvalue ⊢
  generalize (binaryFraction m e 0).den = den at hvalue hden ⊢
  have hdenq : (0 : ℚ) < den := Nat.cast_pos.2 hden
  have hnum : 0 < num := by
    rw [div_pos_iff_of_pos_right hdenq] at hvalue
    exact_mod_cast hvalue
  split
  · rename_i hle
    have hwhole : num / den ≠ 0 := (Nat.div_pos hle hden).ne'
    have hlow := Nat.pow_log_le_self 10 hwhole
    have hhigh := Nat.lt_pow_succ_log_self (b := 10) (by decide) (num / den)
    rw [Nat.le_div_iff_mul_le hden] at hlow
    rw [Nat.div_lt_iff_lt_mul hden] at hhigh
    rw [digitCount_eq, Nat.cast_succ, add_sub_cancel_right, ← Nat.cast_succ, zpow_natCast,
      zpow_natCast, le_div_iff₀ hdenq, div_lt_iff₀ hdenq]
    exact ⟨by exact_mod_cast hlow, by exact_mod_cast hhigh⟩
  · rename_i hlt
    have hwhole : (den - 1) / num ≠ 0 := (Nat.div_pos (by omega) hnum).ne'
    have hlow := Nat.pow_log_le_self 10 hwhole
    have hhigh := Nat.lt_pow_succ_log_self (b := 10) (by decide) ((den - 1) / num)
    rw [Nat.le_div_iff_mul_le hnum] at hlow
    rw [Nat.div_lt_iff_lt_mul hnum] at hhigh
    obtain ⟨l, hl⟩ : ∃ l, Nat.log 10 ((den - 1) / num) = l := ⟨_, rfl⟩
    rw [hl] at hlow hhigh
    have hplace : 1 - ((l + 1 : ℕ) : ℤ) = -(l : ℤ) := by push_cast; ring
    have hplace' : -(l : ℤ) - 1 = -((l + 1 : ℕ) : ℤ) := by push_cast; ring
    rw [digitCount_eq, hl, hplace, hplace', zpow_neg, zpow_neg, zpow_natCast, zpow_natCast,
      inv_eq_one_div, inv_eq_one_div, div_le_div_iff₀ (by positivity) hdenq,
      div_lt_div_iff₀ hdenq (by positivity), one_mul]
    constructor
    · have hle : den ≤ num * 10 ^ (l + 1) := by
        rw [mul_comm]
        exact Nat.le_of_pred_lt hhigh
      exact_mod_cast hle
    · have hlt : num * 10 ^ l < den := by
        rw [mul_comm]
        omega
      exact_mod_cast hlt

theorem leadingPlace_le (hm : 0 < m) {k : ℤ} (h : (m : ℚ) * 2 ^ e < 10 ^ k) :
    leadingPlace m e ≤ k := by
  have hlow := (leadingPlace_spec hm e).1.trans_lt h
  rw [zpow_lt_zpow_iff_right₀ (by norm_num)] at hlow
  omega

theorem lt_leadingPlace (hm : 0 < m) {k : ℤ} (h : (10 : ℚ) ^ k ≤ m * 2 ^ e) :
    k < leadingPlace m e :=
  (zpow_lt_zpow_iff_right₀ (by norm_num)).1 (h.trans_lt (leadingPlace_spec hm e).2)

/-- The search ends on the first grid on which a multiple is found. -/
theorem exists_first_grid {b k : Nat} (hk : k < 17)
    (hb : nearestOnGrid? m e (leadingPlace m e - 1 - k) = some b) :
    ∃ n ≤ k, ∃ a, shortestDigits m e = (a, leadingPlace m e - 1 - n) ∧
      nearestOnGrid? m e (leadingPlace m e - 1 - n) = some a ∧
        ∀ j < n, nearestOnGrid? m e (leadingPlace m e - 1 - j) = none := by
  simp only [shortestDigits]
  generalize hsearch : (List.range 17).findSome? (fun n : Nat =>
    (nearestOnGrid? m e (leadingPlace m e - 1 - n)).map fun a => (a, leadingPlace m e - 1 - n)) = r
  cases r with
  | none =>
    have hfound := List.findSome?_eq_none_iff.1 hsearch k (List.mem_range.2 hk)
    rw [hb] at hfound
    cases hfound
  | some found =>
    obtain ⟨before, n, after, hsplit, hfound, hbefore⟩ := List.findSome?_eq_some_iff.1 hsearch
    obtain ⟨a, ha, rfl⟩ := Option.map_eq_some_iff.1 hfound
    have hnone {j : Nat} (hj : j < n) : nearestOnGrid? m e (leadingPlace m e - 1 - j) = none := by
      rw [List.range_eq_range', List.range'_eq_append_iff] at hsplit
      obtain ⟨i, -, rfl, hafter⟩ := hsplit
      have hn : n = i := by
        cases hi : 17 - i with
        | zero =>
          rw [hi] at hafter
          cases hafter
        | succ i' =>
          rw [hi, List.range'_succ] at hafter
          cases hafter
          omega
      have hmem : j ∈ List.range' 0 i := by
        rw [List.mem_range'_1]
        omega
      exact Option.map_eq_none_iff.1 (hbefore j hmem)
    refine ⟨n, ?_, a, rfl, ha, fun j => hnone⟩
    by_contra hlt
    rw [hnone (not_le.1 hlt)] at hb
    cases hb

/-! ## Multiples of a half -/

/-- Digits are found on a grid at least as coarse as the first on which the number is. -/
theorem place_le_shortestDigits {b : Nat} (hm : 0 < m) (h : (m : ℚ) * 2 ^ e = b * 10 ^ place)
    (htop : place ≤ leadingPlace m e - 1) (hrange : leadingPlace m e - 1 < place + 17) :
    ∃ a q, nearestOnGrid? m e q = some a ∧ place ≤ q ∧ shortestDigits m e = (a, q) := by
  obtain ⟨k, hk⟩ : ∃ k : ℕ, leadingPlace m e - 1 - k = place :=
    ⟨(leadingPlace m e - 1 - place).toNat, by omega⟩
  have hfound := nearestOnGrid?_of_eq hm h
  rw [← hk] at hfound
  obtain ⟨n, hn, a, hdigits, ha, -⟩ := exists_first_grid (by omega) hfound
  exact ⟨a, _, ha, by omega, hdigits⟩

theorem near_of_readsBack (hm : 0 < m) (h : readsBack m e a place = true) :
    |(a : ℚ) * 10 ^ place - m * 2 ^ e| ≤ 2 ^ e / 2 := by
  obtain ⟨hlower, hupper⟩ := mem_of_readsBack h
  have hbelow := (le_lowerEnd hm).trans hlower
  rw [upperEnd, quarter_eq] at hupper
  rw [abs_le]
  constructor <;> linarith

/-- A multiple of a half is its own shortest decimal. -/
theorem shortestDecimal_of_half (negative : Bool) (h : Canonical m e) (he : e ≤ 0) {k : Nat}
    (hk : 2 * ((m : ℚ) * 2 ^ e) = k) : (shortestDecimal negative m e).magnitude = m * 2 ^ e := by
  have hpos : 0 < k := by
    have hvalue := h.magnitude_pos
    have hcast : (0 : ℚ) < k := by linarith
    exact_mod_cast hcast
  have hsmall : (10 : ℚ) ^ (-1 : ℤ) ≤ m * 2 ^ e := by
    have hone : (1 : ℚ) ≤ k := by exact_mod_cast hpos
    rw [zpow_neg_one]
    linarith
  have hlarge : (m : ℚ) * 2 ^ e < 10 ^ (16 : ℤ) := by
    calc (m : ℚ) * 2 ^ e < 2 ^ (e + 53) := h.magnitude_lt_pow
      _ ≤ 2 ^ (53 : ℤ) := zpow_le_zpow_right₀ (by norm_num) (by omega)
      _ < 10 ^ (16 : ℤ) := by norm_num
  have htenth : (m : ℚ) * 2 ^ e = (5 * k : ℕ) * 10 ^ (-1 : ℤ) := by
    rw [zpow_neg_one]
    push_cast
    linarith
  have hleading := leadingPlace_le h.pos hlarge
  have hleading' := lt_leadingPlace h.pos hsmall
  obtain ⟨a, q, ha, hq, hdigits⟩ :=
    place_le_shortestDigits h.pos htenth (by omega) (by omega)
  rw [shortestDecimal_of_pos negative h.pos, hdigits]
  obtain hfirst | hwhole : -1 = q ∨ 0 ≤ q := by omega
  · rw [← hfirst, nearestOnGrid?_of_eq h.pos htenth] at ha
    cases ha
    rw [← hfirst, htenth]
  · -- A whole number that reads back is nearer than the next multiple of a half.
    obtain ⟨q, rfl⟩ := Int.eq_ofNat_of_zero_le hwhole
    have hnear := near_of_readsBack h.pos (readsBack_of_nearestOnGrid? ha)
    have hcast : (a : ℚ) * 10 ^ (q : ℤ) = (a * 10 ^ q : ℕ) := by push_cast; rfl
    simp only [hcast] at hnear ⊢
    generalize a * 10 ^ q = n at hnear ⊢
    rw [abs_le] at hnear
    obtain rfl | hlt := he.eq_or_lt
    · rw [zpow_zero, mul_one] at hnear ⊢
      have hlow : (2 * m : ℚ) ≤ 2 * n + 1 := by linarith
      have hhigh : (2 * n : ℚ) ≤ 2 * m + 1 := by linarith
      have hlow' : 2 * m ≤ 2 * n + 1 := by exact_mod_cast hlow
      have hhigh' : 2 * n ≤ 2 * m + 1 := by exact_mod_cast hhigh
      have heq : n = m := by omega
      rw [heq]
    · have hstep : (2 : ℚ) ^ e ≤ 1 / 2 := by
        calc (2 : ℚ) ^ e ≤ 2 ^ (-1 : ℤ) := zpow_le_zpow_right₀ (by norm_num) (by omega)
          _ = 1 / 2 := by norm_num
      have hlow : (2 * k : ℚ) ≤ 4 * n + 1 := by linarith
      have hhigh : (4 * n : ℚ) ≤ 2 * k + 1 := by linarith
      have hlow' : 2 * k ≤ 4 * n + 1 := by exact_mod_cast hlow
      have hhigh' : 4 * n ≤ 2 * k + 1 := by exact_mod_cast hhigh
      have heq : k = 2 * n := by omega
      rw [heq] at hk
      push_cast at hk
      linarith

/-! ## Rounding -/

theorem canonical_half {k : Nat} (hpos : 0 < k) (h : k < 2 ^ 53) :
    Canonical (fullMantissa k) (k.log2 - 53) := by
  have hfull := canonical_fullMantissa hpos h
  have hlog : k.log2 < 53 := (Nat.log2_lt hpos.ne').2 h
  exact {
    pos := hfull.pos
    lt := hfull.lt
    minExponent_le := by omega
    le_maxExponent := by omega
    full := .inl (hfull.full.resolve_right (by omega)) }

theorem fullMantissa_half {k : Nat} (h : k < 2 ^ 53) :
    (fullMantissa k : ℚ) * 2 ^ ((k.log2 : ℤ) - 53) = k / 2 := by
  have hlog : k.log2 ≤ 52 := log2_le_of_lt h
  have hexponent : ((k.log2 : ℤ) - 53) = -((52 - k.log2 : ℕ) : ℤ) - 1 := by omega
  rw [fullMantissa, hexponent, zpow_sub₀ (by norm_num), zpow_neg, zpow_natCast]
  push_cast
  field_simp

theorem shortestDecimal_lt_half (negative : Bool) (h : Canonical m e) {k : Nat} (hk : k < 2 ^ 53)
    (hlt : (m : ℚ) * 2 ^ e < k / 2) : (shortestDecimal negative m e).magnitude < k / 2 := by
  have hpos : 0 < k := by
    have hvalue := h.magnitude_pos
    have hcast : (0 : ℚ) < k := by linarith
    exact_mod_cast hcast
  rw [← fullMantissa_half hk] at hlt ⊢
  exact shortestDecimal_lt negative h (canonical_half hpos hk) hlt

theorem half_lt_shortestDecimal (negative : Bool) (h : Canonical m e) {k : Nat} (hk : k < 2 ^ 53)
    (hlt : (k : ℚ) / 2 < m * 2 ^ e) : k / 2 < (shortestDecimal negative m e).magnitude := by
  obtain rfl | hpos := Nat.eq_zero_or_pos k
  · have hm : (1 : ℚ) ≤ m := by exact_mod_cast h.pos
    have hlower : (0 : ℚ) < (m - 1 / 2) * 2 ^ e := mul_pos (by linarith) (by positivity)
    rw [Nat.cast_zero, zero_div]
    exact hlower.trans_le ((le_lowerEnd h.pos).trans (shortestDecimal_mem negative h.pos e).1)
  · rw [← fullMantissa_half hk] at hlt ⊢
    exact lt_shortestDecimal negative (canonical_half hpos hk) h hlt

/-- Only a number with its last digit below the half is no multiple of it. -/
theorem exponent_le_of_not_half (h : ∀ k : ℕ, 2 * ((m : ℚ) * 2 ^ e) ≠ k) : e ≤ -2 := by
  by_contra hlarge
  obtain ⟨j, hj⟩ : ∃ j : ℕ, e + 1 = j := ⟨(e + 1).toNat, by omega⟩
  have hdouble : (2 : ℚ) ^ j = 2 ^ e * 2 := by
    rw [← zpow_natCast, ← hj, zpow_add_one₀ (by norm_num)]
  refine h (m * 2 ^ j) ?_
  push_cast
  rw [hdouble]
  ring

/-- Beyond the whole numbers that the format has all of, there is one more at an equal distance. -/
theorem eq_of_exponent_pos (h : Canonical m e) (he : 0 < e) (hle : (m : ℚ) * 2 ^ e ≤ 2 ^ 53) :
    m = 2 ^ 52 ∧ e = 1 := by
  have hfull : 2 ^ 52 ≤ m := h.full.resolve_right (by omega)
  have hfull' : (2 : ℚ) ^ 52 ≤ m := by exact_mod_cast hfull
  have hone : e ≤ 1 := by
    by_contra hlarge
    have hstep : (2 : ℚ) ^ (2 : ℤ) ≤ 2 ^ e := zpow_le_zpow_right₀ (by norm_num) (by omega)
    norm_num at hstep
    nlinarith
  obtain rfl : e = 1 := by omega
  rw [zpow_one] at hle
  have hlow : (m : ℚ) ≤ 2 ^ 52 := by linarith
  have hlow' : m ≤ 2 ^ 52 := by exact_mod_cast hlow
  exact ⟨by omega, rfl⟩

theorem shortestDecimal_of_pow (negative : Bool) :
    (shortestDecimal negative (2 ^ 52) 1).magnitude = ((2 ^ 52 : ℕ) : ℚ) * 2 ^ (1 : ℤ) := by
  have hdigits : shortestDecimal negative (2 ^ 52) 1 = ⟨negative, 9007199254740992, 0⟩ := by
    cases negative <;> decide +kernel
  rw [hdigits, Decimal.magnitude]
  norm_num

/-- The shortest decimal of a number is rounded as the number is. -/
theorem floor_shortestDecimal (negative : Bool) (h : Canonical m e)
    (hle : (m : ℚ) * 2 ^ e ≤ 2 ^ 53) :
    ⌊(shortestDecimal negative m e).magnitude + 1 / 2⌋ = ⌊(m : ℚ) * 2 ^ e + 1 / 2⌋ := by
  by_cases hhalf : ∃ k : ℕ, 2 * ((m : ℚ) * 2 ^ e) = k
  · obtain ⟨k, hk⟩ := hhalf
    by_cases he : e ≤ 0
    · rw [shortestDecimal_of_half negative h he hk]
    · obtain ⟨rfl, rfl⟩ := eq_of_exponent_pos h (not_le.1 he) hle
      rw [shortestDecimal_of_pow]
  · have hne (k : ℕ) : 2 * ((m : ℚ) * 2 ^ e) ≠ k := fun hk => hhalf ⟨k, hk⟩
    have hvalue := h.magnitude_pos
    have hbound : (m : ℚ) * 2 ^ e < 2 ^ 51 := by
      have hexponent := exponent_le_of_not_half hne
      calc (m : ℚ) * 2 ^ e < 2 ^ (e + 53) := h.magnitude_lt_pow
        _ ≤ 2 ^ (51 : ℤ) := zpow_le_zpow_right₀ (by norm_num) (by omega)
        _ = 2 ^ 51 := by norm_num
    obtain ⟨n, hn⟩ : ∃ n : ℕ, ⌊(m : ℚ) * 2 ^ e + 1 / 2⌋ = n :=
      ⟨_, (Int.toNat_of_nonneg (Int.floor_nonneg.2 (by linarith))).symm⟩
    obtain ⟨hlow, hhigh⟩ := Int.floor_eq_iff.1 hn
    rw [Int.cast_natCast] at hlow hhigh
    have hsmall : n < 2 ^ 51 + 1 := by
      have hcast : (n : ℚ) < 2 ^ 51 + 1 := by linarith
      exact_mod_cast hcast
    -- The points halfway to the whole numbers beside `n` part the decimal as they part the number.
    rw [hn, Int.floor_eq_iff, Int.cast_natCast]
    constructor
    · have hcast : (2 * n : ℚ) - 1 ≤ (2 * n - 1 : ℕ) := by
        have hle : 2 * n ≤ 2 * n - 1 + 1 := by omega
        have hle' : (2 * n : ℚ) ≤ (2 * n - 1 : ℕ) + 1 := by exact_mod_cast hle
        linarith
      have hlt : ((2 * n - 1 : ℕ) : ℚ) / 2 < m * 2 ^ e := by
        have hother := hne (2 * n - 1)
        obtain rfl | hpos := Nat.eq_zero_or_pos n
        · simpa using hvalue
        · rw [Nat.cast_sub (by omega)] at hother ⊢
          push_cast at hother ⊢
          exact lt_of_le_of_ne (by linarith) fun heq => hother (by linarith)
      have habove := half_lt_shortestDecimal negative h (by omega) hlt
      linarith
    · have hbelow := shortestDecimal_lt_half negative h (k := 2 * n + 1) (by omega) (by
        push_cast
        linarith)
      push_cast at hbelow
      linarith

end ThermalLabel
