import Mathlib
import ThermalLabel.Proofs.Number.Magnitude
import ThermalLabel.Proofs.Number.WholeNumbers
/-!
# Finite binary numbers

An integer far below the largest binary number has a finite one nearest to it. Rounding gives no
others: a coordinate that a drag ends on is finite, however large it is.
-/

namespace ThermalLabel

open Float.Model Float.Model.UnpackedFloat

namespace Binary64

private theorem isFinite_unpack_components (s : Sign) {e : BitVec 11} (he : e ≠ -1#11)
    (m : BitVec 52) :
    (UnpackedFloat.unpack Format.binary64 (packComponents Format.binary64 s e m)).isFinite =
      true := by
  have hbits : e.toNat < 2 ^ 11 := e.isLt
  have hbelow : ((e.toNat : Int) - 1022) ≤ 1026 := by omega
  exact (below_unpack_components s he m hbelow (by decide)).isFinite

/-- A number whose exponent is in range is still finite when it is stored. -/
theorem isFinite_pack {s : Sign} {m : Nat} {e : Int} (hm : 0 < m) (he : e ≤ 971) :
    (Float.Model.pack (.finite s m e hm)).unpack.isFinite = true := by
  have hbias : Format.binary64.exponentBias = 1023 := rfl
  obtain ⟨b, hb⟩ : ∃ b : Nat, (e + (1023 : Nat) + (52 : Nat)).toNat = b := ⟨_, rfl⟩
  have hroom : ¬2 ^ 11 ≤ b + 1 := by omega
  have hnormal : BitVec.ofNat 11 b ≠ -1#11 := by
    intro h
    have hnat := congrArg BitVec.toNat h
    rw [BitVec.toNat_ofNat, Nat.mod_eq_of_lt (by omega)] at hnat
    simp at hnat
    omega
  change (UnpackedFloat.unpack Format.binary64
    (UnpackedFloat.pack Format.binary64 (.finite s m e hm))).isFinite = true
  simp only [UnpackedFloat.pack, hbias, hb, if_neg hroom]
  split
  · exact isFinite_unpack_components s hnormal _
  · exact isFinite_unpack_components s (by decide) _

theorem isFinite_pack_zero (s : Sign) : (Float.Model.pack (.zero s)).unpack.isFinite = true := by
  cases s <;> rfl

/-- A finite number is read from its bits in canonical form. -/
theorem canonical_of_unpack {b : BitVec Format.binary64.numBits} {s : Sign} {m : Nat} {e : Int}
    {hm : 0 < m} (h : UnpackedFloat.unpack Format.binary64 b = .finite s m e hm) :
    Canonical m e := by
  have hbias : Format.binary64.exponentBias = 1023 := rfl
  simp only [UnpackedFloat.unpack, hbias] at h
  split at h
  · split at h <;> cases h
  · rename_i hordinary
    have hlt : (unpackExponent b).toNat < 2 ^ 11 := (unpackExponent b).isLt
    have hne : (unpackExponent b).toNat ≠ 2047 := by
      intro hmax
      apply hordinary
      apply BitVec.eq_of_toNat_eq
      rw [hmax]
      rfl
    have hlow : (unpackMantissa b).toNat < 2 ^ 52 := (unpackMantissa b).isLt
    split at h
    · rename_i hsubnormal
      split at h
      · cases h
      · cases h
        rw [hsubnormal]
        exact ⟨hm, by omega, by decide, by decide, Or.inr (by decide)⟩
    · rename_i hnormal
      have hpos : (unpackExponent b).toNat ≠ 0 := by
        intro hzero
        apply hnormal
        apply BitVec.eq_of_toNat_eq
        rw [hzero]
        rfl
      have hmantissa : (1#1 ++ unpackMantissa b).toNat = 2 ^ 52 + (unpackMantissa b).toNat := by
        rw [BitVec.toNat_append, ← Nat.shiftLeft_add_eq_or_of_lt hlow]
        rfl
      cases h
      rw [hmantissa] at hm ⊢
      exact ⟨hm, by omega, by omega, by omega, Or.inl (by omega)⟩

end Binary64

theorem isFinite_neg {x : Float} (h : x.isFinite = true) : x.neg.isFinite = true := by
  change x.toModel.unpack.isFinite = true at h
  change (Float.Model.pack x.toModel.unpack.neg).unpack.isFinite = true
  rcases Binary64.zero_or_finite h with ⟨s, hx⟩ | ⟨s, m, e, hm, hx⟩
  · rw [hx]
    exact Binary64.isFinite_pack_zero _
  · rw [hx]
    exact Binary64.isFinite_pack hm (Binary64.canonical_of_unpack hx).le_maxExponent

theorem isFinite_ofFloat (x : Float) : (ExactValue.ofFloat x).isFinite = x.isFinite := by
  change _ = x.toModel.unpack.isFinite
  unfold ExactValue.ofFloat
  cases x.toModel.unpack <;> rfl

theorem isFinite_ofNat {n : Nat} (h : n < 2 ^ 256) : (Float.ofNat n).isFinite = true := by
  by_cases hsmall : n < 2 ^ 53
  · change (Float.ofNat n).toModel.unpack.isFinite = true
    rcases Nat.eq_zero_or_pos n with rfl | hpos
    · rfl
    · rw [Binary64.unpack_ofNat hpos hsmall]
      rfl
  · have hpos : 0 < n := by omega
    have hlog : n.log2 < 256 := (Nat.log2_lt (by omega)).2 h
    have hslow : Float.ofNat n = ⟨Float.Model.ofScientific n 0⟩ := by
      change Float.ofScientific n false 0 = _
      unfold Float.ofScientific
      rw [dif_neg fun hfast => hsmall hfast.1]
      rfl
    have hzero : n ≠ 0 := Nat.ne_of_gt hpos
    have hlength : (n <<< 53 * 10 ^ 0).log2 ≤ 400 := by
      rw [Nat.pow_zero, Nat.mul_one, Nat.shiftLeft_eq, Binary64.log2_mul_two_pow hpos]
      omega
    rw [hslow]
    change (Float.Model.pack
      (UnpackedFloat.ofScientific Format.binary64 n 0)).unpack.isFinite = true
    have hproduct : UnpackedFloat.ofScientific Format.binary64 n 0 =
        roundWithAccuracy Format.binary64 (.positive * .positive) (n <<< 53 * 10 ^ 0) (-53 + 0)
          .exact := by
      have hlarge : ¬(0 : Int) > 2 ^ 11 := by decide
      have hsmall : ¬(0 : Int) < -((2 ^ 11 : Int) + n.log2) := by omega
      unfold UnpackedFloat.ofScientific
      rw [dif_neg hzero, if_neg hlarge, if_neg hsmall, if_pos le_rfl]
      rfl
    have htotal : totalExponent (n <<< 53 * 10 ^ 0) (-53 + 0) ≤ 348 := by
      simp only [totalExponent]
      omega
    rw [hproduct]
    exact (Binary64.below_roundWithAccuracy htotal (by decide) (by decide)).isFinite

/-- An integer far below the largest binary number has a finite one nearest to it. -/
theorem isFinite_ofInt {n : Int} (h : n.natAbs < 2 ^ 256) : (Float.ofInt n).isFinite = true := by
  cases n with
  | ofNat n => exact isFinite_ofNat h
  | negSucc n => exact isFinite_neg (isFinite_ofNat h)

theorem isFinite_of_ofInteger {n : Int} {x : Float} (h : ofInteger n = .ok x) :
    x.isFinite = true := by
  unfold ofInteger at h
  by_cases hfinite : (ExactValue.ofFloat (Float.ofInt n)).isFinite = true
  · rw [if_pos hfinite] at h
    cases h
    rwa [isFinite_ofFloat] at hfinite
  · rw [if_neg hfinite] at h
    cases h

theorem natAbs_lt_of_round? {d : Decimal} {n : Int} (h : d.round? = .ok n) :
    n.natAbs < 10 ^ 28 := by
  unfold Decimal.round? at h
  by_cases hdigits : d.wholeMagnitude < Nat.pow 10 maxRoundedDigits
  · rw [if_pos hdigits] at h
    cases h
    have hmagnitude : d.nearestInt.natAbs = d.wholeMagnitude := by
      unfold Decimal.nearestInt
      split <;> omega
    rw [hmagnitude]
    exact hdigits
  · rw [if_neg hdigits] at h
    cases h

theorem natAbs_lt_of_roundHalfUp {x : Float} {n : Int} (h : roundHalfUp x = .ok n) :
    n.natAbs < 10 ^ 28 := by
  unfold roundHalfUp at h
  split at h
  · cases h
  · cases h
  · exact natAbs_lt_of_round? h

end ThermalLabel
