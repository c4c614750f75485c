import Mathlib
import ThermalLabel.Proofs.Number.Binary64
/-!
# How large a result can be

The digits of a number and its exponent say below which power of two it lies. Rounding drops the
digits beyond those that the format keeps and moves the number up by one power at most, so that what
is rounded from a number of moderate size is finite.
-/

namespace ThermalLabel.Binary64

open Float.Model Float.Model.UnpackedFloat

/-- Finite, and below `2 ^ k` in magnitude. -/
def Below (k : Int) : UnpackedFloat → Prop
  | .zero _ => True
  | .finite _ m e _ => totalExponent m e ≤ k
  | _ => False

theorem Below.isFinite {k : Int} {x : UnpackedFloat} (h : Below k x) : x.isFinite = true := by
  cases x with
  | notANumber => cases h
  | infinity s => cases h
  | zero s => rfl
  | finite s m e hm => rfl

/-! ## Storing -/

theorem log2_le_of_lt {m k : Nat} (h : m < 2 ^ (k + 1)) : m.log2 ≤ k := by
  by_cases hm : m = 0
  · simp [hm]
  · have hlog := (Nat.log2_lt hm).2 h
    omega

theorem below_unpack_components (s : Sign) {b : BitVec 11} (hb : b ≠ -1#11)
    (m : BitVec 52) {k : Int} (hk : (b.toNat : Int) - 1022 ≤ k) (hleast : -1022 ≤ k) :
    Below k (UnpackedFloat.unpack Format.binary64 (packComponents Format.binary64 s b m)) := by
  have hbias : Format.binary64.exponentBias = 1023 := rfl
  unfold UnpackedFloat.unpack
  simp only [unpackExponent_packComponents, unpackMantissa_packComponents, hb, if_false]
  split
  · rename_i hsubnormal
    split
    · trivial
    · have hlog : m.toNat.log2 ≤ 51 := log2_le_of_lt m.isLt
      change totalExponent m.toNat _ ≤ k
      simp only [totalExponent, hsubnormal, hbias]
      simp
      omega
  · have hlog : (1#1 ++ m).toNat.log2 ≤ 52 := log2_le_of_lt (1#1 ++ m).isLt
    change totalExponent (1#1 ++ m).toNat _ ≤ k
    simp only [totalExponent, hbias]
    omega

/-- A number of moderate size is no larger once it is stored. -/
theorem below_pack {s : Sign} {m : Nat} {e k : Int} (hm : 0 < m) (h : totalExponent m e ≤ k)
    (hleast : -1022 ≤ k) (hlarge : k ≤ 900) :
    Below k (Float.Model.pack (.finite s m e hm)).unpack := by
  have hbias : Format.binary64.exponentBias = 1023 := rfl
  simp only [totalExponent] at h
  obtain ⟨b, hb⟩ : ∃ b : Nat, (e + (1023 : Nat) + (52 : Nat)).toNat = b := ⟨_, rfl⟩
  have hroom : ¬2 ^ 11 ≤ b + 1 := by omega
  have hbits : (BitVec.ofNat 11 b).toNat = b := by
    rw [BitVec.toNat_ofNat, Nat.mod_eq_of_lt (by omega)]
  have hordinary : BitVec.ofNat 11 b ≠ -1#11 := by
    intro hmax
    have hnat := congrArg BitVec.toNat hmax
    rw [hbits] at hnat
    simp at hnat
    omega
  change Below k (UnpackedFloat.unpack Format.binary64
    (UnpackedFloat.pack Format.binary64 (.finite s m e hm)))
  simp only [UnpackedFloat.pack, hbias, hb, if_neg hroom, Format.mantissaBits]
  split
  · exact below_unpack_components s hordinary _ (by omega) hleast
  · exact below_unpack_components s (by decide) _ (by simpa using hleast) hleast

theorem below_pack_zero (s : Sign) (k : Int) : Below k (Float.Model.pack (.zero s)).unpack := by
  cases s <;> trivial

/-! ## Rounding -/

theorem mantissa_shiftRight (em : ExtendedMantissa) (k : Nat) :
    (em >>> k).mantissa = em.mantissa / 2 ^ k := by
  change (k.repeat ExtendedMantissa.shiftRightOne em).mantissa = _
  induction k with
  | zero => simp [Nat.repeat]
  | succ k ih =>
    change (k.repeat ExtendedMantissa.shiftRightOne em).mantissa / 2 = _
    rw [ih, Nat.div_div_eq_div_mul, Nat.pow_succ]

private theorem roundedMantissa_le (em : ExtendedMantissa) :
    em.roundedMantissa ≤ em.mantissa + 1 := by
  unfold ExtendedMantissa.roundedMantissa
  cases em.accuracy with
  | exact => exact Nat.le_succ _
  | inexact o =>
    cases o with
    | lt => exact Nat.le_succ _
    | eq =>
      change em.mantissa + em.mantissa % 2 ≤ em.mantissa + 1
      omega
    | gt => exact le_rfl

private theorem mantissa_ofMantissaAndAccuracy (m : Nat) (acc : Accuracy) :
    (ExtendedMantissa.ofMantissaAndAccuracy m acc).mantissa = m := by
  cases acc with
  | exact => rfl
  | inexact o => cases o <;> rfl

private theorem log2_div_two_pow {m k : Nat} (h : m / 2 ^ k ≠ 0) :
    (m / 2 ^ k).log2 + k = m.log2 := by
  have hm : m ≠ 0 := fun hm => h (by rw [hm, Nat.zero_div])
  have hk : k ≤ m.log2 := by
    apply (Nat.le_log2 hm).2
    by_contra hlt
    exact h (Nat.div_eq_of_lt (Nat.not_le.1 hlt))
  rw [Nat.log2_eq_log_two, Nat.log2_eq_log_two, Nat.log_div_base_pow]
  rw [Nat.log2_eq_log_two] at hk
  omega

/-- Digits that are dropped are made up for by the exponent. -/
private theorem totalExponent_div {m k : Nat} (h : m / 2 ^ k ≠ 0) (e : Int) :
    totalExponent (m / 2 ^ k) (e + k) = totalExponent m e := by
  have hlog := log2_div_two_pow h
  simp only [totalExponent]
  omega

private theorem totalExponent_succ_le {m n : Nat} (hm : m ≠ 0) (h : n ≤ m + 1) (e : Int) :
    totalExponent n e ≤ totalExponent m e + 1 := by
  have hlog : n.log2 ≤ m.log2 + 1 := by
    rw [← Nat.log2_two_mul hm, Nat.log2_eq_log_two, Nat.log2_eq_log_two]
    exact Nat.log_mono_right (by omega)
  simp only [totalExponent]
  omega

/-- The digits of a number beyond those that the format keeps. -/
def excess (m : Nat) (e : Int) : Nat :=
  (Format.binary64.targetExponent (totalExponent m e) - e).toNat

/-- Rounding drops the digits beyond the format by the accuracy of the rest, and then the digit that
this may have brought. -/
theorem roundWithAccuracy_steps (s : Sign) {m r a b : Nat} {e : Int} {acc : Accuracy}
    (ha : excess m e = a)
    (hr : (ExtendedMantissa.ofMantissaAndAccuracy m acc >>> a).roundedMantissa = r)
    (hb : excess r (e + a) = b) :
    (r / 2 ^ b = 0 ∧ roundWithAccuracy Format.binary64 s m e acc = .zero s) ∨
      ∃ h, roundWithAccuracy Format.binary64 s m e acc = .finite s (r / 2 ^ b) (e + a + b) h := by
  have hfirst : shiftToTargetExponent Format.binary64 m e acc =
      (ExtendedMantissa.ofMantissaAndAccuracy m acc >>> a, e + a) := by
    rw [← ha]
    rfl
  have hsecond : shiftToTargetExponent Format.binary64 r (e + a) .exact =
      ((⟨r, false, false⟩ : ExtendedMantissa) >>> b, e + a + b) := by
    rw [← hb]
    rfl
  simp only [roundWithAccuracy, hfirst, hr, hsecond, mantissa_shiftRight]
  by_cases hzero : r / 2 ^ b = 0
  · exact Or.inl ⟨hzero, dif_pos hzero⟩
  · exact Or.inr ⟨Nat.pos_of_ne_zero hzero, dif_neg hzero⟩

/-- What rounding keeps of the digits grows by one at most. -/
theorem roundWithAccuracy_cases (s : Sign) (m : Nat) (e : Int) (acc : Accuracy) :
    ∃ r ≤ m / 2 ^ excess m e + 1, ∃ a b : Nat, a = excess m e ∧ b = excess r (e + a) ∧
      ((r / 2 ^ b = 0 ∧ roundWithAccuracy Format.binary64 s m e acc = .zero s) ∨
        ∃ h, roundWithAccuracy Format.binary64 s m e acc =
          .finite s (r / 2 ^ b) (e + a + b) h) := by
  have hrounded := roundedMantissa_le (ExtendedMantissa.ofMantissaAndAccuracy m acc >>> excess m e)
  rw [mantissa_shiftRight, mantissa_ofMantissaAndAccuracy] at hrounded
  exact ⟨_, hrounded, _, _, rfl, rfl, roundWithAccuracy_steps s rfl rfl rfl⟩

/-- Rounding to the format moves a number up by one power of two at most. -/
theorem below_roundWithAccuracy {s : Sign} {m : Nat} {e k : Int} {acc : Accuracy}
    (h : totalExponent m e ≤ k) (hleast : -1000 ≤ k) (hlarge : k ≤ 800) :
    Below (k + 1) (Float.Model.pack (roundWithAccuracy Format.binary64 s m e acc)).unpack := by
  obtain ⟨r, hrounded, a, b, ha, -, hstored⟩ := roundWithAccuracy_cases s m e acc
  rw [← ha] at hrounded
  have htotal : totalExponent r (e + a) ≤ k + 1 := by
    by_cases hzero : m / 2 ^ a = 0
    · -- No digit is left but for the one that rounding may bring.
      have hlog : r.log2 = 0 := by
        have hone : r = 0 ∨ r = 1 := by omega
        rcases hone with rfl | rfl <;> rfl
      simp only [excess, Format.targetExponent, Format.minExponent, Format.mantissaBits,
        totalExponent] at ha h ⊢
      omega
    · have hle := totalExponent_succ_le hzero hrounded (e + a)
      rw [totalExponent_div hzero] at hle
      omega
  rcases hstored with ⟨-, hzero⟩ | ⟨hpos, hfinite⟩
  · rw [hzero]
    exact below_pack_zero s _
  · rw [hfinite]
    exact below_pack hpos ((totalExponent_div hpos.ne' _).trans_le htotal) (by omega) (by omega)

end ThermalLabel.Binary64
