import Mathlib
import ThermalLabel.Measure
import ThermalLabel.Proofs.LinePrint.Projection
import ThermalLabel.Proofs.Number.HalfAway
/-!
# Lengths in order

A longer length has no fewer dots and no smaller column than a shorter one, although it is rounded
when it is scaled and again when it becomes whole. Dots treat both directions alike.
-/

namespace ThermalLabel

open Binary64

variable {a b c : Float} {m n : Int}

theorem neg_ne_notANumber (h : a.toModel.unpack ≠ .notANumber) :
    (-a).toModel.unpack ≠ .notANumber := by
  rw [unpack_neg]
  cases ha : a.toModel.unpack with
  | notANumber => exact absurd ha h
  | _ => nofun

/-! ## Scales -/

/-- A scale makes a number of what is finite, a larger one of a larger number and the opposite one
of its opposite. -/
structure Scale (f : Float → Float) : Prop where
  ne_notANumber : ∀ a, a.isFinite = true → (f a).toModel.unpack ≠ .notANumber
  mono : ∀ a b, a.isFinite = true → b.isFinite = true → valueOf a ≤ valueOf b →
    valueOf (f a) ≤ valueOf (f b)
  opposite : ∀ a, a.isFinite = true → valueOf (f (-a)) = -valueOf (f a)

namespace Scale

variable {f g : Float → Float}

theorem mul (hc : c.isFinite = true) (hpos : 0 < valueOf c) : Scale (· * c) where
  ne_notANumber := fun _ ha => mul_ne_notANumber ha hc
  mono := by
    intro a b ha hb h
    rw [valueOf_mul ha hc, valueOf_mul hb hc]
    exact storedValue_mono (mul_le_mul_of_nonneg_right h hpos.le)
  opposite := by
    intro a ha
    rw [valueOf_mul ((isFinite_neg_eq a).trans ha) hc, valueOf_mul ha hc, valueOf_neg,
      neg_mul, storedValue_neg]

theorem div (hc : c.isFinite = true) (hpos : 0 < valueOf c)
    (hfinite : ∀ a : Float, (a / c).isFinite = a.isFinite) : Scale (· / c) where
  ne_notANumber := fun a ha => ne_notANumber_of_isFinite ((hfinite a).trans ha)
  mono := by
    intro a b ha hb h
    rw [valueOf_div ha hc hpos.ne', valueOf_div hb hc hpos.ne']
    exact storedValue_mono (div_le_div_of_nonneg_right h hpos.le)
  opposite := by
    intro a ha
    rw [valueOf_div ((isFinite_neg_eq a).trans ha) hc hpos.ne', valueOf_div ha hc hpos.ne',
      valueOf_neg, neg_div, storedValue_neg]

theorem congr (hf : Scale f) (ha : a.isFinite = true) (hb : b.isFinite = true)
    (h : valueOf a = valueOf b) : valueOf (f a) = valueOf (f b) :=
  le_antisymm (hf.mono a b ha hb h.le) (hf.mono b a hb ha h.ge)

/-- One scale after another that does not lead beyond every number. -/
theorem comp (hf : Scale f) (hg : Scale g) (hfinite : ∀ a, (g a).isFinite = a.isFinite) :
    Scale (fun a => f (g a)) where
  ne_notANumber := fun a ha => hf.ne_notANumber (g a) ((hfinite a).trans ha)
  mono := fun a b ha hb h =>
    hf.mono (g a) (g b) ((hfinite a).trans ha) ((hfinite b).trans hb) (hg.mono a b ha hb h)
  opposite := by
    intro a ha
    have hga := (hfinite a).trans ha
    have hopposite : valueOf (g (-a)) = valueOf (-g a) := by
      rw [hg.opposite a ha, valueOf_neg]
    rw [← hf.opposite (g a) hga]
    exact hf.congr ((hfinite (-a)).trans ((isFinite_neg_eq a).trans ha))
      ((isFinite_neg_eq (g a)).trans hga) hopposite

theorem valueOf_eq_zero (hf : Scale f) (ha : a.isFinite = true) (h : valueOf a = 0) :
    valueOf (f a) = 0 := by
  have hsame : valueOf (-a) = valueOf a := by rw [valueOf_neg, h, neg_zero]
  have hopposite := hf.opposite a ha
  rw [hf.congr ((isFinite_neg_eq a).trans ha) ha hsame] at hopposite
  linarith

end Scale

/-! ## Columns -/

theorem floorInt_eq (negative : Bool) (m : Nat) (e : Int) :
    floorInt negative m e = ⌊(if negative then -(m : ℚ) else m) * 2 ^ e⌋ := by
  have hvalue : (if negative then -(m : ℚ) else m) * 2 ^ e =
      (((if negative then -(m * 2 ^ e.toNat : ℕ) else (m * 2 ^ e.toNat : ℕ)) : ℤ) : ℚ) /
        (2 ^ (-e).toNat : ℕ) := by
    rw [zpow_eq_div (by norm_num) e]
    cases negative
    · rw [if_neg Bool.false_ne_true, if_neg Bool.false_ne_true]
      push_cast
      ring
    · rw [if_pos rfl, if_pos rfl]
      push_cast
      ring
  rw [hvalue, Rat.floor_intCast_div_natCast]
  rfl

theorem floorOf_eq (ha : a.isFinite = true) : floorOf a = .ok ⌊valueOf a⌋ := by
  unfold floorOf ExactValue.ofFloat valueOf
  rcases zero_or_finite (x := a.toModel.unpack) ha with ⟨s, hs⟩ | ⟨s, m, e, hm, hs⟩
  · rw [hs]
    cases s <;> rfl
  · rw [hs]
    cases s
    · change Except.ok (floorInt true m e) = .ok ⌊-((m : ℚ) * 2 ^ e)⌋
      rw [floorInt_eq, if_pos rfl, neg_mul]
    · change Except.ok (floorInt false m e) = .ok ⌊(m : ℚ) * 2 ^ e⌋
      rw [floorInt_eq, if_neg Bool.false_ne_true]

/-! ## Conversions -/

/-- What is not larger is not converted to a larger integer. -/
def KeepsOrder (convert : Float → Except NumberError Int) : Prop :=
  ∀ a b m n, a.isFinite = true → b.isFinite = true → a ≤ b → convert a = .ok m →
    convert b = .ok n → m ≤ n

/-- The two directions are converted alike. -/
structure KeepsSign (convert : Float → Except NumberError Int) : Prop where
  opposite : ∀ a : Float, a.isFinite = true → convert (-a) = (convert a).map fun n => -n
  zero : ∀ a : Float, (a == 0.0) = true → convert a = .ok 0
  nonneg : ∀ a n, a.isFinite = true → 0.0 ≤ a → convert a = .ok n → 0 ≤ n

namespace Scale

variable {f : Float → Float} (hf : Scale f)
include hf

theorem keepsOrder_roundHalfUp : KeepsOrder fun a => roundHalfUp (f a) := by
  intro a b m n ha hb h hm hn
  rw [le_iff_valueOf_le (ne_notANumber_of_isFinite ha) (ne_notANumber_of_isFinite hb)] at h
  exact roundHalfUp_mono (hf.mono a b ha hb h) hm hn

theorem keepsOrder_floorOf : KeepsOrder fun a => floorOf (f a) := by
  intro a b m n ha hb h hm hn
  rw [le_iff_valueOf_le (ne_notANumber_of_isFinite ha) (ne_notANumber_of_isFinite hb)] at h
  have hm' := (floorOf_eq (LinePrint.exists_floorOf_iff.1 ⟨m, hm⟩)).symm.trans hm
  have hn' := (floorOf_eq (LinePrint.exists_floorOf_iff.1 ⟨n, hn⟩)).symm.trans hn
  cases hm'
  cases hn'
  exact Int.floor_mono (hf.mono a b ha hb h)

theorem keepsSign_roundHalfUp : KeepsSign fun a => roundHalfUp (f a) := by
  have hzero (a : Float) (h : (a == 0.0) = true) : roundHalfUp (f a) = .ok 0 := by
    obtain ⟨s, hs⟩ := unpack_of_beq_zero h
    have ha : a.isFinite = true := by
      change a.toModel.unpack.isFinite = true
      rw [hs]
      rfl
    have hvalue : valueOf a = 0 := by
      rw [valueOf, hs]
      rfl
    have hscaled := hf.valueOf_eq_zero ha hvalue
    have hfinite : (f a).isFinite = true := by
      apply isFinite_of_abs_valueOf_lt (hf.ne_notANumber a ha)
      rw [hscaled, abs_zero]
      positivity
    obtain ⟨t, ht⟩ := unpack_of_valueOf_eq_zero hfinite hscaled
    exact roundHalfUp_of_zero ht
  refine ⟨fun a ha => ?_, hzero, fun a n ha h hn => ?_⟩
  · have ha' := (isFinite_neg_eq a).trans ha
    rw [← roundHalfUp_neg]
    apply roundHalfUp_congr (hf.ne_notANumber (-a) ha')
      (neg_ne_notANumber (hf.ne_notANumber a ha))
    rw [hf.opposite a ha, valueOf_neg]
  · exact hf.keepsOrder_roundHalfUp 0.0 a 0 n rfl ha h (hzero 0.0 rfl) hn

end Scale

theorem unpack_dotScale :
    dotScale.toModel.unpack = .finite .positive 4503599627370496 (-49) (by decide) := rfl

theorem valueOf_dotScale : valueOf dotScale = 8 := by
  rw [valueOf, unpack_dotScale, value, signed]
  norm_num

theorem valueOf_pos {k : Nat} {e : Int} (hk : 0 < k)
    (h : c.toModel.unpack = .finite .positive k e hk) : 0 < valueOf c := by
  rw [valueOf, h]
  exact magnitude_pos hk e

theorem scale_dots : Scale (· * dotScale) :=
  .mul rfl (valueOf_dotScale ▸ by norm_num)

theorem scale_pixels : Scale pixelsToMillimeters :=
  .div rfl (valueOf_pos (k := 8510739453298576) (e := -51) (by decide) rfl)
    LinePrint.isFinite_pixelsToMillimeters

theorem scale_points : Scale (· * dotsPerPoint) :=
  .mul rfl (valueOf_pos (k := 6348824474695908) (e := -51) (by decide) rfl)

theorem scale_columns : Scale (· * LinePrint.columnsPerMillimeter) :=
  .mul rfl (valueOf_pos (k := 5404319552844595) (e := -53) (by decide) rfl)

/-- Every conversion to dots or columns keeps the order of lengths, and those to dots their sign. -/
theorem conversions_keep_order_and_sign :
    (∀ convert ∈ [pixelsToDots, millimetersToDots, pointsToDots, LinePrint.columnFor],
      KeepsOrder convert) ∧
      ∀ convert ∈ [pixelsToDots, millimetersToDots, pointsToDots], KeepsSign convert := by
  have hpixels := scale_dots.comp scale_pixels LinePrint.isFinite_pixelsToMillimeters
  have hcolumns := scale_columns.comp scale_pixels LinePrint.isFinite_pixelsToMillimeters
  simp only [List.forall_mem_cons, List.not_mem_nil, false_imp_iff, implies_true, and_true]
  exact ⟨⟨hpixels.keepsOrder_roundHalfUp, scale_dots.keepsOrder_roundHalfUp,
    scale_points.keepsOrder_roundHalfUp, hcolumns.keepsOrder_floorOf⟩,
    hpixels.keepsSign_roundHalfUp, scale_dots.keepsSign_roundHalfUp,
    scale_points.keepsSign_roundHalfUp⟩

/-- Ten pixels have fewer dots than eleven, and as many in the other direction. -/
theorem tenPixels_before_eleven :
    pixelsToDots 10.0 = .ok 21 ∧ pixelsToDots 11.0 = .ok 23 ∧ (21 : Int) ≤ 23 ∧
      pixelsToDots (-10.0) = .ok (-21) := by
  have hten : pixelsToDots 10.0 = .ok 21 := by decide +kernel
  have heleven : pixelsToDots 11.0 = .ok 23 := by decide +kernel
  have horder := conversions_keep_order_and_sign.1 pixelsToDots (.head _) 10.0 11.0 21 23 rfl rfl
    (by decide +kernel) hten heleven
  have hsign := (conversions_keep_order_and_sign.2 pixelsToDots (.head _)).opposite 10.0 rfl
  rw [hten] at hsign
  exact ⟨hten, heleven, horder, hsign⟩

end ThermalLabel
