import Mathlib
import ThermalLabel.Proofs.Number.Finite
/-!
# Scaled numbers

A finite number is finite again when it is multiplied by a number below one or divided by a number
from two on, however large it is: rounding does not lead beyond the largest binary number. What is
not finite stays so.
-/

namespace ThermalLabel

open Float.Model Float.Model.UnpackedFloat

namespace Binary64

theorem not_isFinite_pack_notANumber :
    (Float.Model.pack .notANumber).unpack.isFinite = false := by
  decide

theorem not_isFinite_pack_infinity (s : Sign) :
    (Float.Model.pack (.infinity s)).unpack.isFinite = false := by
  cases s <;> decide

/-- What lies below the largest number by a digit of its own is rounded to a finite one. -/
theorem isFinite_roundWithAccuracy {s : Sign} {m : Nat} {e : Int} {acc : Accuracy} (he : e ≤ 971)
    (hm : m + 1 ≤ (2 ^ 53 - 1) * 2 ^ (971 - e).toNat) :
    (Float.Model.pack (roundWithAccuracy Format.binary64 s m e acc)).unpack.isFinite = true := by
  obtain ⟨r, hrounded, a, b, ha, hb, hstored⟩ := roundWithAccuracy_cases s m e acc
  rw [← ha] at hrounded
  rcases hstored with ⟨-, hzero⟩ | ⟨hpos, hfinite⟩
  · rw [hzero]
    exact isFinite_pack_zero s
  · obtain ⟨d, hd⟩ : ∃ d, (971 - e).toNat = d := ⟨_, rfl⟩
    rw [hd] at hm
    have hlog : m.log2 ≤ 52 + d := by
      apply log2_le_of_lt
      calc m < m + 1 := Nat.lt_succ_self m
        _ ≤ (2 ^ 53 - 1) * 2 ^ d := hm
        _ ≤ 2 ^ 53 * 2 ^ d := Nat.mul_le_mul_right _ (by decide)
        _ = 2 ^ (52 + d + 1) := by
          rw [← Nat.pow_add]
          congr 1
          omega
    have had : a ≤ d := by
      simp only [excess, Format.targetExponent, Format.minExponent, Format.mantissaBits,
        totalExponent] at ha
      omega
    have hquotient : m / 2 ^ a < (2 ^ 53 - 1) * 2 ^ (d - a) := by
      apply (Nat.div_lt_iff_lt_mul (Nat.two_pow_pos a)).2
      calc m < (2 ^ 53 - 1) * 2 ^ d := hm
        _ = (2 ^ 53 - 1) * 2 ^ (d - a) * 2 ^ a := by
          rw [Nat.mul_assoc, ← Nat.pow_add, Nat.sub_add_cancel had]
    have hlog' : r.log2 ≤ 52 + (d - a) := by
      apply log2_le_of_lt
      calc r ≤ (2 ^ 53 - 1) * 2 ^ (d - a) := hrounded.trans hquotient
        _ < 2 ^ 53 * 2 ^ (d - a) := Nat.mul_lt_mul_of_pos_right (by decide) (Nat.two_pow_pos _)
        _ = 2 ^ (52 + (d - a) + 1) := by
          rw [← Nat.pow_add]
          congr 1
          omega
    have hexponent : e + a + b ≤ 971 := by
      simp only [excess, Format.targetExponent, Format.minExponent, Format.mantissaBits,
        totalExponent] at hb
      omega
    rw [hfinite]
    exact isFinite_pack hpos hexponent

theorem isFinite_mul {s t : Sign} {m n : Nat} {e f : Int} {hm : 0 < m} {hn : 0 < n}
    (hx : Canonical m e) (hy : totalExponent n f ≤ 0) :
    (Float.Model.pack (UnpackedFloat.mul Format.binary64 (.finite s m e hm)
      (.finite t n f hn))).unpack.isFinite = true := by
  have hmax := hx.le_maxExponent
  have hlt := hx.lt
  simp only [totalExponent] at hy
  apply isFinite_roundWithAccuracy
  · omega
  · calc m * n + 1 ≤ (2 ^ 53 - 1) * n + 1 :=
          Nat.add_le_add_right (Nat.mul_le_mul_right n (by omega)) 1
      _ ≤ (2 ^ 53 - 1) * (n + 1) := by omega
      _ ≤ (2 ^ 53 - 1) * 2 ^ (n.log2 + 1) := Nat.mul_le_mul_left _ Nat.lt_log2_self
      _ ≤ (2 ^ 53 - 1) * 2 ^ (971 - (e + f)).toNat :=
          Nat.mul_le_mul_left _ (Nat.pow_le_pow_right (by decide) (by omega))

theorem isFinite_div {s t : Sign} {m n : Nat} {e f : Int} {hm : 0 < m} {hn : 0 < n}
    (hx : totalExponent m e ≤ 1024) (hy : 2 ≤ totalExponent n f) :
    (Float.Model.pack (UnpackedFloat.div Format.binary64 (.finite s m e hm)
      (.finite t n f hn))).unpack.isFinite = true := by
  obtain ⟨target, htarget⟩ : ∃ target, min (e - f)
      (Format.binary64.targetExponent (totalExponent m e - totalExponent n f)) = target := ⟨_, rfl⟩
  obtain ⟨a, ha⟩ : ∃ a, (e - f - target).toNat = a := ⟨_, rfl⟩
  have hcore : divCore Format.binary64 m e n f =
      (m * 2 ^ a / n, target, accuracyOfFraction ((m * 2 ^ a) % n) n) := by
    simp only [divCore, htarget, ha, Nat.shiftLeft_eq]
  simp only [Format.targetExponent, Format.minExponent, Format.mantissaBits, totalExponent]
    at htarget hx hy
  simp only [UnpackedFloat.div, hcore]
  apply isFinite_roundWithAccuracy
  · omega
  · have hquotient : m * 2 ^ a / n < 2 ^ (52 + (971 - target).toNat) := by
      apply (Nat.div_lt_iff_lt_mul hn).2
      calc m * 2 ^ a < 2 ^ (m.log2 + 1) * 2 ^ a :=
            Nat.mul_lt_mul_of_pos_right Nat.lt_log2_self (Nat.two_pow_pos a)
        _ = 2 ^ (m.log2 + 1 + a) := (Nat.pow_add 2 _ a).symm
        _ ≤ 2 ^ (52 + (971 - target).toNat + n.log2) :=
            Nat.pow_le_pow_right (by decide) (by omega)
        _ = 2 ^ (52 + (971 - target).toNat) * 2 ^ n.log2 := Nat.pow_add 2 _ _
        _ ≤ 2 ^ (52 + (971 - target).toNat) * n :=
            Nat.mul_le_mul_left _ (Nat.log2_self_le hn.ne')
    calc m * 2 ^ a / n + 1 ≤ 2 ^ (52 + (971 - target).toNat) := hquotient
      _ = 2 ^ 52 * 2 ^ (971 - target).toNat := Nat.pow_add 2 _ _
      _ ≤ (2 ^ 53 - 1) * 2 ^ (971 - target).toNat := Nat.mul_le_mul_right _ (by decide)

end Binary64

/-- A factor below one in magnitude. -/
theorem isFinite_mul_eq {x c : Float} {t : Sign} {n : Nat} {f : Int} {hn : 0 < n}
    (hc : c.toModel.unpack = .finite t n f hn) (hsmall : totalExponent n f ≤ 0) :
    (x * c).isFinite = x.isFinite := by
  change (Float.Model.pack (UnpackedFloat.mul Format.binary64 x.toModel.unpack
    c.toModel.unpack)).unpack.isFinite = x.toModel.unpack.isFinite
  rw [hc]
  cases hx : x.toModel.unpack with
  | notANumber => exact Binary64.not_isFinite_pack_notANumber
  | infinity s => exact Binary64.not_isFinite_pack_infinity _
  | zero s => exact Binary64.isFinite_pack_zero _
  | finite s m e hm => exact Binary64.isFinite_mul (Binary64.canonical_of_unpack hx) hsmall

/-- A divisor from two on in magnitude. -/
theorem isFinite_div_eq {x c : Float} {t : Sign} {n : Nat} {f : Int} {hn : 0 < n}
    (hc : c.toModel.unpack = .finite t n f hn) (hlarge : 2 ≤ totalExponent n f) :
    (x / c).isFinite = x.isFinite := by
  change (Float.Model.pack (UnpackedFloat.div Format.binary64 x.toModel.unpack
    c.toModel.unpack)).unpack.isFinite = x.toModel.unpack.isFinite
  rw [hc]
  cases hx : x.toModel.unpack with
  | notANumber => exact Binary64.not_isFinite_pack_notANumber
  | infinity s => exact Binary64.not_isFinite_pack_infinity _
  | zero s => exact Binary64.isFinite_pack_zero _
  | finite s m e hm =>
    have hcanonical := Binary64.canonical_of_unpack hx
    have hlog := Binary64.log2_le_of_lt hcanonical.lt
    have hmax := hcanonical.le_maxExponent
    apply Binary64.isFinite_div _ hlarge
    simp only [totalExponent]
    omega

end ThermalLabel
