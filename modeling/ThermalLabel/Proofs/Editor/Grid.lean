import Mathlib
import ThermalLabel.Editor.Edit
import ThermalLabel.Proofs.Number.NearestAway
import ThermalLabel.Proofs.Number.Scaled
import ThermalLabel.Proofs.Number.Tenths
/-!
# The grid that drags end on

A coordinate is dragged to the line of the grid nearest to where the drag leads, or to the edge of
the canvas at zero. Neither the stored quotient by the distance of the lines nor the decimal that is
rounded leads to another line. A drag over no distance leads back to the line where it began.
-/

namespace ThermalLabel

open Float.Model Binary64

theorem clampZoom_cases (zoom : Float) :
    clampZoom zoom = minZoom ∨ clampZoom zoom = maxZoom ∨
      minZoom < zoom ∧ zoom < maxZoom ∧ clampZoom zoom = zoom := by
  unfold clampZoom atMost
  by_cases hupper : zoom < maxZoom
  · rw [if_pos hupper]
    unfold atLeast
    by_cases hlower : minZoom < zoom
    · exact .inr (.inr ⟨hlower, hupper, if_pos hlower⟩)
    · exact .inl (if_neg hlower)
  · rw [if_neg hupper]
    exact .inr (.inl (by rfl))

theorem clampZoom_clampZoom (zoom : Float) : clampZoom (clampZoom zoom) = clampZoom zoom := by
  rcases clampZoom_cases zoom with h | h | ⟨-, -, h⟩
  · rw [h]
    rfl
  · rw [h]
    rfl
  · rw [h, h]

theorem valueOf_minZoom : valueOf minZoom = 1 / 4 := by
  have hunpack : minZoom.toModel.unpack = .finite .positive (2 ^ 52) (-54) (by decide) := by rfl
  rw [valueOf, hunpack, value, signed]
  norm_num

theorem valueOf_maxZoom : valueOf maxZoom = 3 := by
  have hunpack : maxZoom.toModel.unpack = .finite .positive (3 * 2 ^ 51) (-51) (by decide) := by rfl
  rw [valueOf, hunpack, value, signed]
  norm_num

theorem isFinite_clampZoom (zoom : Float) :
    (clampZoom zoom).isFinite = true ∧ 0 < valueOf (clampZoom zoom) := by
  have hmin : minZoom.isFinite = true := by rfl
  have hmax : maxZoom.isFinite = true := by rfl
  rcases clampZoom_cases zoom with h | h | ⟨hlower, hupper, h⟩
  · rw [h, valueOf_minZoom]
    exact ⟨hmin, by norm_num⟩
  · rw [h, valueOf_maxZoom]
    exact ⟨hmax, by norm_num⟩
  · have hnumber : zoom.toModel.unpack ≠ .notANumber := by
      intro hnan
      rw [lt_iff_compare, hnan] at hupper
      cases hupper
    rw [lt_iff_valueOf_lt (ne_notANumber_of_isFinite hmin) hnumber, valueOf_minZoom] at hlower
    rw [lt_iff_valueOf_lt hnumber (ne_notANumber_of_isFinite hmax), valueOf_maxZoom] at hupper
    have hpos : 0 < valueOf zoom := lt_trans (by norm_num) hlower
    rw [h]
    refine ⟨isFinite_of_abs_valueOf_lt hnumber ?_, hpos⟩
    rw [abs_of_pos hpos]
    exact hupper.trans (by
      calc (3 : ℚ) < 2 ^ 2 := by norm_num
        _ < 2 ^ 1024 := pow_lt_pow_right₀ (by norm_num) (by norm_num))

namespace Editor

/-! ## Lines of the grid -/

/-- The line of the grid nearest to a number, the larger one of two. -/
structure NearestLine (v : ℚ) (n : ℤ) : Prop where
  nonneg : 0 ≤ n
  dvd : gridSize ∣ n
  nearest : ∀ k, gridSize ∣ k → |(n : ℚ) - v| ≤ |k - v|
  larger : ∀ k, gridSize ∣ k → |(k : ℚ) - v| = |n - v| → k ≤ n

theorem cast_line (q : ℤ) : ((q * gridSize : ℤ) : ℚ) = q * 10 := by
  push_cast
  rfl

theorem nearestLine_floor {v : ℚ} (hv : 0 ≤ v) :
    NearestLine v (⌊v / 10 + 1 / 2⌋ * gridSize) := by
  have hv' : 0 ≤ v / 10 := div_nonneg hv (by norm_num)
  have hnearest := nearestAway_floor hv'
  have hscale (j : ℤ) : |((j * gridSize : ℤ) : ℚ) - v| = |(j : ℚ) - v / 10| * 10 := by
    rw [cast_line, ← abs_of_pos (by norm_num : (0 : ℚ) < 10), ← abs_mul, sub_mul,
      abs_of_pos (by norm_num : (0 : ℚ) < 10), div_mul_cancel₀ _ (by norm_num)]
  have hnonneg : 0 ≤ ⌊v / 10 + 1 / 2⌋ := by
    rw [Int.floor_nonneg]
    linarith
  refine ⟨Int.mul_nonneg hnonneg (by decide), Int.dvd_mul_left _ _, ?_, ?_⟩
  · rintro _ ⟨j, rfl⟩
    rw [mul_comm gridSize j, hscale, hscale]
    exact mul_le_mul_of_nonneg_right (hnearest.nearest j) (by norm_num)
  · rintro _ ⟨j, rfl⟩ hsame
    rw [mul_comm gridSize j] at hsame ⊢
    rw [hscale, hscale, mul_left_inj' (by norm_num)] at hsame
    have haway := hnearest.away j hsame
    rw [abs_of_nonneg hnonneg] at haway
    exact Int.mul_le_mul_of_nonneg_right ((le_abs_self j).trans haway) (by decide)

/-- On the grid nothing is nearer. -/
theorem NearestLine.eq_of_dvd {n k : ℤ} (h : NearestLine (k : ℚ) n) (hk : gridSize ∣ k) : n = k := by
  have hnearest := h.nearest k hk
  rw [sub_self, abs_zero, abs_nonpos_iff, sub_eq_zero] at hnearest
  exact_mod_cast hnearest

/-! ## Snapping -/

theorem unpack_ten :
    (10.0 : Float).toModel.unpack = .finite .positive (5 * 2 ^ 50) (-49) (by decide) := by
  rfl

theorem valueOf_ten : valueOf 10.0 = 10 := by
  rw [valueOf, unpack_ten, value, signed]
  norm_num

theorem snap_eq {t : Float} (ht : t.isFinite = true) (hnonneg : 0 ≤ valueOf t)
    (hlt : valueOf t < 2 ^ 53) : snap t = .ok (⌊valueOf t / 10 + 1 / 2⌋ * gridSize) := by
  have hten : (10.0 : Float).isFinite = true := by rfl
  have hnonneg' : 0 ≤ valueOf t / 10 := div_nonneg hnonneg (by norm_num)
  have hfinite : (t / 10.0).isFinite = true := (isFinite_div_eq unpack_ten (by decide)).trans ht
  have hvalue : valueOf (t / 10.0) = stored (valueOf t / 10) := by
    rw [valueOf_div ht hten (by rw [valueOf_ten]; norm_num), valueOf_ten,
      storedValue_of_nonneg hnonneg']
  have hle : valueOf (t / 10.0) ≤ 2 ^ 53 := by
    rw [hvalue]
    have hbound : valueOf t / 10 ≤ (2 ^ 53 : ℕ) := by
      push_cast
      linarith
    exact_mod_cast stored_le_natCast hnonneg' le_rfl hbound
  have hround := roundHalfUp_eq hfinite (hvalue ▸ stored_nonneg hnonneg') hle
  rw [hvalue, floor_stored_valueOf_tenth ht hnonneg hlt] at hround
  rw [snap, hround]
  rfl

/-! ## Dragging -/

theorem valueOf_zero : valueOf 0.0 = 0 := by rfl

theorem valueOf_atLeast_zero {x : Float} (hx : x.isFinite = true) :
    (atLeast 0.0 x).isFinite = true ∧ valueOf (atLeast 0.0 x) = max 0 (valueOf x) := by
  have hzero : (0.0 : Float).isFinite = true := by rfl
  have hlt := lt_iff_valueOf_lt (ne_notANumber_of_isFinite hzero) (ne_notANumber_of_isFinite hx)
  rw [valueOf_zero] at hlt
  unfold atLeast
  by_cases hpos : 0.0 < x
  · rw [if_pos hpos]
    exact ⟨hx, (max_eq_right (hlt.1 hpos).le).symm⟩
  · rw [if_neg hpos]
    exact ⟨hzero, (max_eq_left (not_lt.1 (mt hlt.2 hpos))).symm⟩

/-- The first power of two from which on numbers are whole. -/
def wholeFrom : Float := 4503599627370496.0

theorem valueOf_wholeFrom : valueOf wholeFrom = 2 ^ 52 := by
  have hunpack : wholeFrom.toModel.unpack = .finite .positive (2 ^ 52) 0 (by decide) := by rfl
  rw [valueOf, hunpack, value, signed]
  norm_num

theorem isFinite_of_abs_lt {x : Float} (h : x.abs < wholeFrom) :
    x.isFinite = true ∧ |valueOf x| < 2 ^ 52 := by
  have hwhole : wholeFrom.toModel.unpack ≠ .notANumber := by
    have hfinite : wholeFrom.isFinite = true := by rfl
    exact ne_notANumber_of_isFinite hfinite
  have hnumber : x.toModel.unpack ≠ .notANumber := by
    intro hnan
    rw [lt_iff_compare, unpack_abs, hnan] at h
    cases h
  rw [lt_iff_valueOf_lt (abs_ne_notANumber hnumber) hwhole, valueOf_abs, valueOf_wholeFrom] at h
  exact ⟨isFinite_of_abs_valueOf_lt hnumber
    (h.trans (pow_lt_pow_right₀ (by norm_num) (by norm_num))), h⟩

/-- A drag leads to the nearest line of the grid. -/
theorem exists_draggedTo {zoom start distance : Float}
    (hfinite : (start + screenToLogical distance zoom).isFinite = true)
    (hsize : |valueOf (start + screenToLogical distance zoom)| < 2 ^ 52) :
    ∃ n, draggedTo zoom start distance = .ok n ∧
      NearestLine (max 0 (valueOf (start + screenToLogical distance zoom))) n ∧ n ≤ 2 ^ 53 := by
  obtain ⟨hfinite', hvalue⟩ := valueOf_atLeast_zero hfinite
  obtain ⟨v, hv⟩ : ∃ v, max 0 (valueOf (start + screenToLogical distance zoom)) = v := ⟨_, rfl⟩
  have hnonneg : 0 ≤ v := hv ▸ le_max_left _ _
  have hlt : v < 2 ^ 52 := by
    rw [← hv]
    exact max_lt (by norm_num) (lt_of_abs_lt hsize)
  rw [hv] at hvalue ⊢
  refine ⟨⌊v / 10 + 1 / 2⌋ * gridSize, ?_, nearestLine_floor hnonneg, ?_⟩
  · rw [draggedTo, snap_eq hfinite' (hvalue.symm ▸ hnonneg) (by linarith), hvalue]
  · have hfloor := Int.floor_le (v / 10 + 1 / 2)
    have hle : ((⌊v / 10 + 1 / 2⌋ * gridSize : ℤ) : ℚ) ≤ (2 ^ 53 : ℤ) := by
      rw [cast_line]
      push_cast
      linarith
    exact_mod_cast hle

/-! ## Drags over no distance -/

/-- A coordinate on a line of the grid. -/
structure OnGrid (c : Float) : Prop where
  finite : c.isFinite = true
  line : ∃ k : ℕ, valueOf c = (gridSize * k : ℤ)

/-- What a coordinate is left as: the same number, though a zero may lose its sign. -/
structure LeftAs (c x : Float) : Prop where
  finite : x.isFinite = true
  beq : (x == c) = true
  eq : c ≠ -0.0 → x = c

variable {c x : Float}

theorem leftAs_of_valueOf_eq (hc : c.isFinite = true) (hx : x.isFinite = true)
    (h : valueOf x = valueOf c) (hzero : valueOf c = 0 → x = 0.0) : LeftAs c x := by
  refine ⟨hx, ?_, fun hsign => ?_⟩
  · exact (beq_iff_valueOf_eq (ne_notANumber_of_isFinite hx) (ne_notANumber_of_isFinite hc)).2 h
  · by_cases hvalue : valueOf c = 0
    · rw [hzero hvalue]
      obtain ⟨s, hs⟩ := unpack_of_valueOf_eq_zero hc hvalue
      cases s
      · exact absurd (eq_of_unpack_eq hs) hsign
      · exact (eq_of_unpack_eq hs).symm
    · exact eq_of_valueOf_eq hx hc h (h ▸ hvalue)

theorem leftAs_refl (hc : c.isFinite = true) : LeftAs c c := by
  have hnumber := ne_notANumber_of_isFinite hc
  exact ⟨hc, (beq_iff_valueOf_eq hnumber hnumber).2 rfl, fun _ => rfl⟩

theorem LeftAs.valueOf_eq (h : LeftAs c x) (hc : c.isFinite = true) : valueOf x = valueOf c :=
  (beq_iff_valueOf_eq (ne_notANumber_of_isFinite h.finite) (ne_notANumber_of_isFinite hc)).1 h.beq

/-- No distance at any zoom is no distance on the canvas. -/
theorem add_screenToLogical {distance : Float} (zoom : Float) (hc : c.isFinite = true)
    (hdistance : (distance == 0.0) = true) :
    (c + screenToLogical distance zoom).isFinite = true ∧
      valueOf (c + screenToLogical distance zoom) = valueOf c := by
  obtain ⟨hfinite, hpos⟩ := isFinite_clampZoom zoom
  obtain ⟨s, hs⟩ := unpack_of_beq_zero hdistance
  obtain ⟨t, ht⟩ : ∃ t, (screenToLogical distance zoom).toModel.unpack = .zero t := by
    change ∃ t, (Float.Model.pack (UnpackedFloat.div Format.binary64 distance.toModel.unpack
      (clampZoom zoom).toModel.unpack)).unpack = .zero t
    rw [hs]
    unfold valueOf at hpos
    rcases zero_or_finite (x := (clampZoom zoom).toModel.unpack) hfinite with
      ⟨t, ht⟩ | ⟨t, n, f, hn, ht⟩
    · rw [ht] at hpos
      exact absurd hpos (lt_irrefl 0)
    · rw [ht]
      exact ⟨s / t, IsCanonical.unpack_pack trivial⟩
  have hshift : (screenToLogical distance zoom).isFinite = true := by
    change (screenToLogical distance zoom).toModel.unpack.isFinite = true
    rw [ht]
    rfl
  have hvalue : valueOf (c + screenToLogical distance zoom) = valueOf c := by
    have hzero : valueOf (screenToLogical distance zoom) = 0 := by
      rw [valueOf, ht]
      rfl
    rw [valueOf_add hc hshift, hzero, add_zero, storedValue_valueOf hc]
  refine ⟨isFinite_of_abs_valueOf_lt (add_ne_notANumber hc hshift) ?_, hvalue⟩
  rw [hvalue]
  exact (isCanonical_unpack c.toModel).abs_value_lt hc

/-- A drag over no distance leads back to the line where it began. -/
theorem exists_draggedTo_still {distance : Float} (zoom : Float) (hc : OnGrid c)
    (hsize : |valueOf c| < 2 ^ 52) (hx : LeftAs c x) (hdistance : (distance == 0.0) = true) :
    ∃ n ∈ Set.Icc 0 (2 ^ 53), draggedTo zoom x distance = .ok n ∧ LeftAs c (Float.ofInt n) := by
  obtain ⟨hfinite, k, hk⟩ := hc
  obtain ⟨hsum, hvalue⟩ := add_screenToLogical zoom hx.finite hdistance
  rw [hx.valueOf_eq hfinite] at hvalue
  obtain ⟨n, hn, hline, hle⟩ := exists_draggedTo hsum (hvalue ▸ hsize)
  have hmem : n ∈ Set.Icc 0 (2 ^ 53) := ⟨hline.nonneg, hle⟩
  have hkvalue : max 0 (valueOf c) = (gridSize * k : ℤ) := by
    rw [hk]
    exact max_eq_right (by exact_mod_cast Int.mul_nonneg (by decide) (Int.natCast_nonneg k))
  rw [hvalue, hkvalue] at hline
  rw [← hline.eq_of_dvd (Int.dvd_mul_right _ _)] at hk
  refine ⟨n, hmem, hn, leftAs_of_valueOf_eq hfinite (isFinite_ofInt_of_mem hmem)
    ((valueOf_ofInt hmem).trans hk.symm) fun hzero => ?_⟩
  have hn0 : n = 0 := by
    rw [hk] at hzero
    exact_mod_cast hzero
  rw [hn0]
  rfl

end Editor
end ThermalLabel
