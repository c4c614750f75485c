import Mathlib
import ThermalLabel.Number.Rounding
import ThermalLabel.Proofs.Number.Binary64
/-!
# Integers as binary numbers

Below `2 ^ 53` in magnitude an integer is a binary number, so that taking it for one neither fails
nor changes its value.
-/

namespace ThermalLabel

open Float.Model Float.Model.UnpackedFloat

namespace Binary64

/-- A natural number with its digits moved to full length. -/
def fullMantissa (n : Nat) : Nat := n * 2 ^ (52 - n.log2)

theorem log2_fullMantissa {n : Nat} (hpos : 0 < n) (hlog : n.log2 ≤ 52) :
    (fullMantissa n).log2 = 52 := by
  rw [fullMantissa, log2_mul_two_pow hpos]
  omega

theorem canonical_fullMantissa {n : Nat} (hpos : 0 < n) (h : n < 2 ^ 53) :
    Canonical (fullMantissa n) (n.log2 - 52) := by
  have hlog : n.log2 < 53 := (Nat.log2_lt (Nat.ne_of_gt hpos)).2 h
  have hfull := log2_fullMantissa hpos (by omega)
  have hmantissa : 0 < fullMantissa n := Nat.mul_pos hpos (Nat.two_pow_pos _)
  have hnonzero : fullMantissa n ≠ 0 := Nat.ne_of_gt hmantissa
  exact {
    pos := hmantissa
    lt := (Nat.log2_lt hnonzero).1 (by omega)
    minExponent_le := by omega
    le_maxExponent := by omega
    full := Or.inl ((Nat.le_log2 hnonzero).1 (by omega)) }

private theorem round_natural {n : Nat} (hpos : 0 < n) (h : n < 2 ^ 53) :
    UnpackedFloat.ofNat Format.binary64 n =
      .finite .positive (fullMantissa n) (n.log2 - 52) (canonical_fullMantissa hpos h).pos := by
  have hcanonical := canonical_fullMantissa hpos h
  have hlog : n.log2 < 53 := (Nat.log2_lt (Nat.ne_of_gt hpos)).2 h
  have hpositive : compare (n : Int) 0 = .gt := Int.compare_eq_gt.2 (by omega)
  have htarget : Format.binary64.targetExponent (totalExponent n 0) = n.log2 - 52 := by
    simp only [Format.targetExponent, Format.minExponent, Format.mantissaBits, totalExponent]
    omega
  have hamount : (0 - ((n.log2 : Int) - 52)).toNat = 52 - n.log2 := by omega
  have hexponent : (0 : Int) - ((52 - n.log2 : Nat) : Int) = n.log2 - 52 := by omega
  have hround := roundWithAccuracy_exact hcanonical .positive 0
  rw [Nat.pow_zero, Nat.mul_one, Int.natCast_zero, Int.sub_zero] at hround
  simp only [UnpackedFloat.ofNat, UnpackedFloat.ofInt, UnpackedFloat.normalize, hpositive,
    Int.toNat_natCast, UnpackedFloat.round, htarget, decreaseExponent, hamount, Nat.shiftLeft_eq,
    hexponent]
  exact hround

private theorem unpack_one :
    (Float.exactlyRepresentablePowersOfTen[0]).toModel.unpack =
      .finite .positive (2 ^ 52) (-52) (Nat.two_pow_pos 52) := by
  rfl

theorem ofNat_eq {n : Nat} (h : n < 2 ^ 53) :
    Float.ofNat n =
      ⟨Float.Model.ofUInt64 n.toUInt64 * Float.exactlyRepresentablePowersOfTen[0].toModel⟩ := by
  change Float.ofScientific n false 0 = _
  unfold Float.ofScientific
  rw [dif_pos ⟨h, by decide⟩]
  rfl

theorem unpack_ofNat {n : Nat} (hpos : 0 < n) (h : n < 2 ^ 53) :
    (Float.ofNat n).toModel.unpack =
      .finite .positive (fullMantissa n) (n.log2 - 52) (canonical_fullMantissa hpos h).pos := by
  have hcanonical := canonical_fullMantissa hpos h
  have hword : n.toUInt64.toNat = n := by
    rw [Nat.toUInt64, UInt64.toNat_ofNat']
    omega
  have hinteger : (Float.Model.ofUInt64 n.toUInt64).unpack =
      .finite .positive (fullMantissa n) (n.log2 - 52) hcanonical.pos := by
    rw [Float.Model.ofUInt64, UnpackedFloat.ofUInt64, hword, round_natural hpos h]
    exact hcanonical.unpack_pack .positive
  -- A natural number is read as a decimal without an exponent, and so multiplied by one.
  rw [ofNat_eq h]
  change (Float.Model.mul _ _).unpack = _
  rw [Float.Model.mul, hinteger, unpack_one]
  have hproduct := roundWithAccuracy_exact hcanonical .positive 52
  have hmul : UnpackedFloat.mul Format.binary64
      (.finite .positive (fullMantissa n) (n.log2 - 52) hcanonical.pos)
      (.finite .positive (2 ^ 52) (-52) (Nat.two_pow_pos 52)) =
        .finite .positive (fullMantissa n) (n.log2 - 52) hcanonical.pos := hproduct
  rw [hmul]
  exact hcanonical.unpack_pack .positive

theorem Canonical.unpack_neg {m : Nat} {e : Int} (h : Canonical m e) {x : Float} {s : Sign}
    (hx : x.toModel.unpack = .finite s m e h.pos) :
    x.neg.toModel.unpack = .finite (-s) m e h.pos := by
  change (Float.Model.pack x.toModel.unpack.neg).unpack = _
  rw [hx]
  exact h.unpack_pack (-s)

end Binary64

/-- The exact value of an integer's binary number is the integer. -/
theorem ofFloat_ofInt {n : Int} (hn : n ≠ 0) (h : n.natAbs < 2 ^ 53) :
    ExactValue.ofFloat (Float.ofInt n) =
      .finite (n < 0) (Binary64.fullMantissa n.natAbs) (n.natAbs.log2 - 52) := by
  cases n with
  | ofNat n =>
    have hpos : 0 < n := by
      have hne : (n : Int) ≠ 0 := hn
      omega
    have hsign : decide (Int.ofNat n < 0) = false := by simp
    have hunpack := Binary64.unpack_ofNat hpos h
    change ExactValue.ofFloat (Float.ofNat n) = _
    simp only [ExactValue.ofFloat, hunpack, hsign, Int.natAbs_ofNat']
    rfl
  | negSucc n =>
    have hcanonical := Binary64.canonical_fullMantissa (Nat.succ_pos n) h
    have hunpack := hcanonical.unpack_neg (Binary64.unpack_ofNat (Nat.succ_pos n) h)
    have hsign : decide (Int.negSucc n < 0) = true := by simp
    change ExactValue.ofFloat (Float.ofNat (n + 1)).neg = _
    simp only [ExactValue.ofFloat, hunpack, hsign]
    rfl

theorem ofInteger_eq_ok {n : Int} (h : n.natAbs < 2 ^ 53) : ofInteger n = .ok (Float.ofInt n) := by
  have hfinite : (ExactValue.ofFloat (Float.ofInt n)).isFinite = true := by
    by_cases hn : n = 0
    · rw [hn]
      decide
    · rw [ofFloat_ofInt hn h]
      rfl
  rw [ofInteger, if_pos hfinite]
end ThermalLabel
