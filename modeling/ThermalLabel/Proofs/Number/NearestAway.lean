import Mathlib
/-!
# The nearest integer

Of two integers that are equally near to a number the one farther from zero is taken. For a number
that is not negative that is a floor, and both signs are treated alike.
-/

namespace ThermalLabel

variable {v w : ℚ} {i j : ℤ}

/-- The integer nearest to a number, of two the one farther from zero. -/
structure NearestAway (v : ℚ) (i : ℤ) : Prop where
  nearest : ∀ j : ℤ, |(i : ℚ) - v| ≤ |(j : ℚ) - v|
  away : ∀ j : ℤ, |(j : ℚ) - v| = |(i : ℚ) - v| → |j| ≤ |i|

/-- No integer is nearer than one that is at most a half away. -/
theorem abs_sub_le_of_le_half (h : |(i : ℚ) - v| ≤ 1 / 2) (j : ℤ) :
    |(i : ℚ) - v| ≤ |(j : ℚ) - v| := by
  rw [abs_le] at h
  rcases lt_trichotomy j i with hlt | rfl | hlt
  · have hstep : (j : ℚ) + 1 ≤ i := by exact_mod_cast hlt
    refine le_trans (abs_le.2 ?_) (neg_le_abs _)
    constructor <;> linarith
  · exact le_rfl
  · have hstep : (i : ℚ) + 1 ≤ j := by exact_mod_cast hlt
    refine le_trans (abs_le.2 ?_) (le_abs_self _)
    constructor <;> linarith

theorem abs_floor_add_half_sub_le (v : ℚ) : |(⌊v + 1 / 2⌋ : ℚ) - v| ≤ 1 / 2 := by
  have hlow := Int.floor_le (v + 1 / 2)
  have hhigh := Int.lt_floor_add_one (v + 1 / 2)
  rw [abs_le]
  constructor <;> linarith

theorem nearestAway_floor (hv : 0 ≤ v) : NearestAway v ⌊v + 1 / 2⌋ := by
  have hhalf := abs_floor_add_half_sub_le v
  refine ⟨abs_sub_le_of_le_half hhalf, fun j hj => ?_⟩
  obtain ⟨hlow, hhigh⟩ := abs_le.1 (hj.trans_le hhalf)
  have hle : j ≤ ⌊v + 1 / 2⌋ := by
    rw [Int.le_floor]
    linarith
  have hnonneg : 0 ≤ j := by
    have hcast : (-1 : ℚ) < j := by linarith
    have hlt : -1 < j := by exact_mod_cast hcast
    omega
  exact abs_le_abs_of_nonneg hnonneg hle

namespace NearestAway

theorem neg (h : NearestAway v i) : NearestAway (-v) (-i) := by
  have hmirror (j : ℤ) : |(j : ℚ) - -v| = |((-j : ℤ) : ℚ) - v| := by
    rw [← abs_neg]
    push_cast
    congr 1
    ring
  constructor
  · intro j
    rw [hmirror, hmirror, neg_neg]
    exact h.nearest (-j)
  · intro j hj
    rw [hmirror, hmirror, neg_neg] at hj
    have haway := h.away (-j) hj
    rwa [abs_neg] at haway ⊢

theorem abs_sub_le (h : NearestAway v i) : |(i : ℚ) - v| ≤ 1 / 2 :=
  (h.nearest _).trans (abs_floor_add_half_sub_le v)

theorem unique (h : NearestAway v i) (h' : NearestAway v j) : i = j := by
  have hsame : |(i : ℚ) - v| = |(j : ℚ) - v| := le_antisymm (h.nearest j) (h'.nearest i)
  have hsize : |i| = |j| := le_antisymm (h'.away i hsame) (h.away j hsame.symm)
  obtain hij | hij := abs_eq_abs.1 hsize
  · exact hij
  · -- Opposite integers are equally near to zero only, and there zero is nearer.
    subst hij
    rw [Int.cast_neg, ← neg_add', abs_neg] at hsame
    rcases abs_eq_abs.1 hsame with hzero | hzero
    · have hv : v = 0 := by linarith
      have hnear := h'.nearest 0
      rw [hv, sub_zero, Int.cast_zero, sub_zero, abs_zero, abs_nonpos_iff, Int.cast_eq_zero]
        at hnear
      rw [hnear, neg_zero]
    · have hj : (j : ℚ) = 0 := by linarith
      rw [Int.cast_eq_zero] at hj
      rw [hj, neg_zero]

theorem mono (h : NearestAway v i) (h' : NearestAway w j) (hvw : v ≤ w) : i ≤ j := by
  by_contra hlt
  have hstep : (j : ℚ) + 1 ≤ i := by exact_mod_cast not_le.1 hlt
  have hlow := (abs_le.1 h.abs_sub_le).2
  have hhigh := (abs_le.1 h'.abs_sub_le).1
  obtain rfl : v = w := by linarith
  exact hlt (h.unique h').le

theorem eq_of_intCast (h : NearestAway (j : ℚ) i) : i = j := by
  have hnear := h.nearest j
  rw [sub_self, abs_zero, abs_nonpos_iff, sub_eq_zero, Int.cast_inj] at hnear
  exact hnear

end NearestAway

end ThermalLabel
