import Mathlib
/-!
# Binary numbers that are stored without loss

A mantissa below `2 ^ 53` at an exponent of the format has one canonical form. A number in that
form comes back from its bits unchanged, and an exact result that is a multiple of it by a power
of two is rounded to it.
-/

namespace ThermalLabel.Binary64

open Float.Model Float.Model.UnpackedFloat

/-- A mantissa and an exponent as a binary64 number keeps them. -/
structure Canonical (m : Nat) (e : Int) : Prop where
  pos : 0 < m
  lt : m < 2 ^ 53
  minExponent_le : -1074 ≤ e
  le_maxExponent : e ≤ 971
  /-- Below full length only the least exponent is in use. -/
  full : 2 ^ 52 ≤ m ∨ e = -1074

theorem log2_mul_two_pow {m : Nat} (hm : 0 < m) (k : Nat) : (m * 2 ^ k).log2 = m.log2 + k := by
  induction k with
  | zero => simp
  | succ k ih =>
    have hpos : m * 2 ^ k ≠ 0 := Nat.ne_of_gt (Nat.mul_pos hm (Nat.two_pow_pos k))
    have hsucc : m * 2 ^ (k + 1) = 2 * (m * 2 ^ k) := by
      rw [Nat.pow_succ]
      ac_rfl
    rw [hsucc, Nat.log2_two_mul hpos, ih]
    omega

section Rounding

private theorem shiftRight_exact (m k : Nat) :
    (⟨m * 2 ^ k, false, false⟩ : ExtendedMantissa) >>> k = ⟨m, false, false⟩ := by
  change k.repeat ExtendedMantissa.shiftRightOne ⟨m * 2 ^ k, false, false⟩ = _
  induction k generalizing m with
  | zero => simp [Nat.repeat]
  | succ k ih =>
    have hsucc : m * 2 ^ (k + 1) = 2 * m * 2 ^ k := by
      rw [Nat.pow_succ]
      ac_rfl
    rw [Nat.repeat, hsucc, ih]
    simp [ExtendedMantissa.shiftRightOne]

theorem Canonical.targetExponent_eq {m : Nat} {e : Int} (h : Canonical m e) (k : Nat) :
    Format.binary64.targetExponent (totalExponent (m * 2 ^ k) (e - k)) = e := by
  have hlog := log2_mul_two_pow h.pos k
  have hle : m.log2 ≤ 52 := by
    have := (Nat.log2_lt (Nat.ne_of_gt h.pos)).2 h.lt
    omega
  have hmin := h.minExponent_le
  simp only [Format.targetExponent, Format.minExponent, Format.mantissaBits, totalExponent, hlog]
  rcases h.full with hfull | hleast
  · have hge : 52 ≤ m.log2 := (Nat.le_log2 (Nat.ne_of_gt h.pos)).2 hfull
    omega
  · omega

private theorem shift_exact {m : Nat} {e : Int} (h : Canonical m e) (k : Nat) :
    shiftToTargetExponent Format.binary64 (m * 2 ^ k) (e - k) .exact =
      (⟨m, false, false⟩, e) := by
  have hamount : (e - (e - (k : Int))).toNat = k := by omega
  have hexponent : e - (k : Int) + (k : Int) = e := by omega
  simp only [shiftToTargetExponent, h.targetExponent_eq k, shiftToExponent, hamount, hexponent,
    ExtendedMantissa.ofMantissaAndAccuracy, shiftRight_exact]

/-- An exact value in canonical form, with more digits than it needs, is rounded to that form. -/
theorem roundWithAccuracy_exact {m : Nat} {e : Int} (h : Canonical m e) (s : Sign) (k : Nat) :
    roundWithAccuracy Format.binary64 s (m * 2 ^ k) (e - k) .exact = .finite s m e h.pos := by
  have hagain := shift_exact h 0
  rw [Nat.pow_zero, Nat.mul_one, Int.natCast_zero, Int.sub_zero] at hagain
  have hnonzero : ¬m = 0 := Nat.ne_of_gt h.pos
  unfold roundWithAccuracy
  rw [shift_exact h k]
  simp only [ExtendedMantissa.roundedMantissa, ExtendedMantissa.accuracy,
    Accuracy.roundToNearestEven, hagain, hnonzero, dif_neg, not_false_eq_true]

end Rounding

section Packing

private theorem unpack_normal (s : Sign) (b m : Nat) (hb : 0 < b) (hb' : b + 1 < 2048)
    (hm : 2 ^ 52 ≤ m) (hm' : m < 2 ^ 53) :
    UnpackedFloat.unpack Format.binary64 (packComponents Format.binary64 s (BitVec.ofNat 11 b)
      (BitVec.ofNat 52 m)) = .finite s m (b - 1075) (Nat.lt_of_lt_of_le (by decide) hm) := by
  have hexponent : (BitVec.ofNat 11 b).toNat = b := by
    rw [BitVec.toNat_ofNat, Nat.mod_eq_of_lt (by omega)]
  have hmantissa : (1#1 ++ BitVec.ofNat 52 m).toNat = m := by
    have hlow : m % 2 ^ 52 < 2 ^ 52 := Nat.mod_lt m (by decide)
    simp only [BitVec.toNat_append, BitVec.toNat_ofNat]
    rw [← Nat.shiftLeft_add_eq_or_of_lt hlow, Nat.shiftLeft_eq]
    omega
  have hfinite : ¬BitVec.ofNat 11 b = -1#11 := by
    intro h
    have := congrArg BitVec.toNat h
    rw [hexponent] at this
    simp at this
    omega
  have hnormal : ¬BitVec.ofNat 11 b = 0#11 := by
    intro h
    have := congrArg BitVec.toNat h
    rw [hexponent] at this
    simp at this
    omega
  simp only [UnpackedFloat.unpack, unpackMantissa_packComponents, unpackExponent_packComponents,
    unpackSign_packComponents, Sign.ofBitVec_toBitVec, hfinite, hnormal, if_false, hexponent,
    hmantissa]
  congr 1

private theorem unpack_subnormal (s : Sign) (m : Nat) (hm : 0 < m) (hm' : m < 2 ^ 52) :
    UnpackedFloat.unpack Format.binary64
      (packComponents Format.binary64 s 0#11 (BitVec.ofNat 52 m)) = .finite s m (-1074) hm := by
  have hmantissa : (BitVec.ofNat 52 m).toNat = m := by
    rw [BitVec.toNat_ofNat, Nat.mod_eq_of_lt hm']
  have hnonzero : ¬BitVec.ofNat 52 m = 0#52 := by
    intro h
    have := congrArg BitVec.toNat h
    rw [hmantissa] at this
    simp at this
    omega
  have hfinite : ¬(0#11 : BitVec 11) = -1#11 := by decide
  simp only [UnpackedFloat.unpack, unpackMantissa_packComponents, unpackExponent_packComponents,
    unpackSign_packComponents, Sign.ofBitVec_toBitVec, hfinite, hnonzero, if_false, if_true,
    dif_neg, not_false_eq_true, hmantissa]
  congr 1

/-- Numbers in canonical form come back from their bits. -/
theorem Canonical.unpack_pack {m : Nat} {e : Int} (h : Canonical m e) (s : Sign) :
    (Float.Model.pack (.finite s m e h.pos)).unpack = .finite s m e h.pos := by
  have hmin := h.minExponent_le
  have hmax := h.le_maxExponent
  have hlog : m.log2 < 53 := (Nat.log2_lt (Nat.ne_of_gt h.pos)).2 h.lt
  have hbias : Format.binary64.exponentBias = 1023 := rfl
  obtain ⟨b, hb⟩ : ∃ b : Nat, e = b - 1075 := ⟨(e + 1075).toNat, by omega⟩
  have hbiased : (e + (1023 : Nat) + (52 : Nat)).toNat = b := by omega
  have hroom : ¬2 ^ 11 ≤ b + 1 := by omega
  change UnpackedFloat.unpack Format.binary64
    (UnpackedFloat.pack Format.binary64 (.finite s m e h.pos)) = _
  simp only [UnpackedFloat.pack, hbias, hbiased, if_neg hroom, Format.mantissaBits]
  by_cases hlength : m.log2 + 1 = 1 + 52
  · rw [if_pos hlength, unpack_normal s b m (by omega) (by omega) _ h.lt]
    · simp only [hb]
    · exact (Nat.le_log2 (Nat.ne_of_gt h.pos)).1 (by omega)
  · have hshort : m < 2 ^ 52 := (Nat.log2_lt (Nat.ne_of_gt h.pos)).1 (by omega)
    have hleast : e = -1074 := h.full.resolve_left (by omega)
    rw [if_neg hlength, unpack_subnormal s m h.pos hshort]
    simp only [hleast]

end Packing

/-- A finite number, taken apart. -/
theorem zero_or_finite {x : UnpackedFloat} (h : x.isFinite = true) :
    (∃ s, x = .zero s) ∨ ∃ s m e hm, x = .finite s m e hm := by
  cases x with
  | notANumber => cases h
  | infinity s => cases h
  | zero s => exact Or.inl ⟨s, rfl⟩
  | finite s m e hm => exact Or.inr ⟨s, m, e, hm, rfl⟩

end ThermalLabel.Binary64
