import Mathlib
import ThermalLabel.Image.Monochrome
import ThermalLabel.Proofs.Text.Hexadecimal
/-!
# Packed bitmaps hold the ink of a picture

Each bit of a packed raster is found by its column and row, and it is set exactly where the raster
has ink. So the ink can be unpacked again, what fills up a row is paper, and rasters of the same
size are packed alike exactly if they have the same ink.
-/

namespace ThermalLabel.Image

/-! ## Rasters by their pixels -/

namespace Raster

variable {α β : Type} {r s : Raster α} {x y : Nat}

theorem index_lt (hx : x < r.width) (hy : y < r.height) : y * r.width + x < r.pixels.size := by
  rw [r.size_eq]
  calc y * r.width + x < y * r.width + r.width := by omega
    _ = (y + 1) * r.width := by rw [Nat.add_mul, Nat.one_mul]
    _ ≤ r.height * r.width := Nat.mul_le_mul_right _ hy
    _ = r.width * r.height := Nat.mul_comm _ _

theorem exists_pixel? (hx : x < r.width) (hy : y < r.height) : ∃ p, r.pixel? x y = some p := by
  rw [pixel?, if_pos hx]
  exact ⟨_, Array.getElem?_eq_getElem (index_lt hx hy)⟩

theorem pixel?_eq_none_of_le (hx : r.width ≤ x) : r.pixel? x y = none :=
  if_neg (Nat.not_lt.2 hx)

theorem pixel?_map (f : α → β) : (r.map f).pixel? x y = (r.pixel? x y).map f := by
  simp only [pixel?, map, Array.getElem?_map]
  split <;> rfl

theorem ext_pixel? (hwidth : r.width = s.width) (hheight : r.height = s.height)
    (h : ∀ x < r.width, ∀ y < r.height, r.pixel? x y = s.pixel? x y) : r = s := by
  obtain ⟨w, k, pixels, hsize⟩ := r
  obtain ⟨_, _, pixels', hsize'⟩ := s
  obtain rfl : w = _ := hwidth
  obtain rfl : k = _ := hheight
  have hpixels : pixels = pixels' := by
    apply Array.ext (hsize.trans hsize'.symm)
    intro i hi hi'
    have hinside : i < w * k := hsize ▸ hi
    have hw : 0 < w := Nat.pos_of_mul_pos_right (Nat.zero_lt_of_lt hinside)
    have hx : i % w < w := Nat.mod_lt i hw
    have hy : i / w < k := Nat.div_lt_of_lt_mul hinside
    have hindex : i / w * w + i % w = i := Nat.div_add_mod' i w
    have hpixel := h _ hx _ hy
    simp only [pixel?, if_pos hx, hindex] at hpixel
    rwa [Array.getElem?_eq_getElem hi, Array.getElem?_eq_getElem hi', Option.some_inj] at hpixel
  subst hpixels
  rfl

end Raster

/-! ## Bits of a byte -/

/-- The first of so many bits is the highest. -/
theorem testBit_foldl_bits (bit : Nat → Bool) {n i : Nat} (h : i < n) :
    ((List.range n).foldl (fun m i => 2 * m + (bit i).toNat) 0).testBit (n - 1 - i) = bit i := by
  induction n with
  | zero => exact absurd h (Nat.not_lt_zero i)
  | succ n ih =>
    rw [List.range_succ, List.foldl_append, List.foldl_cons, List.foldl_nil, ← Nat.bit_val]
    rcases Nat.lt_succ_iff_lt_or_eq.1 h with hi | rfl
    · have hplace : n + 1 - 1 - i = (n - 1 - i).succ := by omega
      rw [hplace, Nat.testBit_bit_succ, ih hi]
    · have hplace : i + 1 - 1 - i = 0 := by omega
      rw [hplace, Nat.testBit_bit_zero]

theorem foldl_bits_lt (bit : Nat → Bool) (n : Nat) :
    (List.range n).foldl (fun m i => 2 * m + (bit i).toNat) 0 < 2 ^ n := by
  induction n with
  | zero => exact Nat.one_pos
  | succ n ih =>
    rw [List.range_succ, List.foldl_append, List.foldl_cons, List.foldl_nil, Nat.pow_succ]
    have hbit : (bit n).toNat ≤ 1 := Bool.toNat_le _
    omega

theorem testBit_byteOfBits (bit : Nat → Bool) {i : Nat} (h : i < 8) :
    (byteOfBits bit).testBit (7 - i) = bit i := testBit_foldl_bits bit h

theorem byteOfBits_lt (bit : Nat → Bool) : byteOfBits bit < 256 := foldl_bits_lt bit 8

/-! ## The geometry of a packed raster -/

theorem length_packedRow (r : Raster Rgb) (y : Nat) :
    (packedRow r y).length = rowBytes r.width := by
  simp [packedRow]

theorem length_packedBytes (r : Raster Rgb) :
    (packedBytes r).length = r.height * rowBytes r.width := by
  simp [packedBytes, length_packedRow]

theorem length_payload_pack (r : Raster Rgb) :
    (pack r).payload.length = 2 * (pack r).totalBytes := by
  rw [pack, length_upperHex, length_packedBytes]

theorem payload_pack_ne_empty {r : Raster Rgb} (hwidth : 0 < r.width) (hheight : 0 < r.height) :
    (pack r).payload ≠ "" := by
  have hrow : 0 < rowBytes r.width := by
    unfold rowBytes
    omega
  have htotal : 0 < (pack r).totalBytes := Nat.mul_pos hheight hrow
  intro hempty
  have hlength := length_payload_pack r
  rw [hempty, String.length_empty] at hlength
  omega

theorem packedBytes_lt {r : Raster Rgb} : ∀ b ∈ packedBytes r, b < 256 := by
  intro b hb
  obtain ⟨y, -, hb⟩ := List.mem_flatMap.1 hb
  obtain ⟨i, -, rfl⟩ := List.mem_map.1 hb
  exact byteOfBits_lt _

theorem hexBytes?_payload (r : Raster Rgb) :
    hexBytes? (pack r).payload.toList = some (packedBytes r) := hexBytes?_upperHex packedBytes_lt

/-- Rows of the same length one after the other, by row and place in the row. -/
theorem getElem?_flatMap_range {α : Type} {row : Nat → List α} {k n y j : Nat}
    (hrow : ∀ y, (row y).length = k) (hy : y < n) (hj : j < k) :
    ((List.range n).flatMap row)[y * k + j]? = (row y)[j]? := by
  have hbefore (m : Nat) : ((List.range m).flatMap row).length = m * k := by
    simp [List.length_flatMap, hrow]
  induction n with
  | zero => exact absurd hy (Nat.not_lt_zero y)
  | succ n ih =>
    rw [List.range_succ, List.flatMap_append, List.flatMap_singleton]
    rcases Nat.lt_succ_iff_lt_or_eq.1 hy with hlt | rfl
    · have hinside : y * k + j < n * k :=
        calc y * k + j < y * k + k := by omega
          _ = (y + 1) * k := by rw [Nat.add_mul, Nat.one_mul]
          _ ≤ n * k := Nat.mul_le_mul_right k hlt
      rw [List.getElem?_append_left (by rw [hbefore]; exact hinside), ih hlt]
    · rw [List.getElem?_append_right (by rw [hbefore]; exact Nat.le_add_right _ _), hbefore,
        Nat.add_sub_cancel_left]

theorem getElem?_packedBytes {r : Raster Rgb} {y b : Nat} (hy : y < r.height)
    (hb : b < rowBytes r.width) :
    (packedBytes r)[y * rowBytes r.width + b]? =
      some (byteOfBits fun i => inkAt r (8 * b + i) y) := by
  rw [packedBytes, getElem?_flatMap_range (length_packedRow r) hy hb, packedRow, List.getElem?_map,
    List.getElem?_range hb, Option.map_some]

/-! ## Ink -/

/-- Where a raster has ink. -/
def inkMask (r : Raster Rgb) : Raster Bool := r.map isInk

theorem inkAt_eq (r : Raster Rgb) (x y : Nat) :
    inkAt r x y = ((inkMask r).pixel? x y).getD false := by
  rw [inkMask, Raster.pixel?_map, inkAt]
  cases r.pixel? x y <;> rfl

theorem inkAt_eq_true_iff {r : Raster Rgb} {x y : Nat} :
    inkAt r x y = true ↔
      x < r.width ∧ ∃ p, r.pixel? x y = some p ∧ p.red + p.green + p.blue < 384 := by
  unfold inkAt
  cases hpixel : r.pixel? x y with
  | none => simp
  | some p =>
    have hx : x < r.width := by
      by_contra hx
      rw [Raster.pixel?_eq_none_of_le (Nat.not_lt.1 hx)] at hpixel
      cases hpixel
    have hthreshold : 3 * inkThreshold = 384 := rfl
    simp only [isInk, hthreshold, decide_eq_true_eq, hx, true_and, Option.some_inj, exists_eq_left']

/-! ## Unpacking -/

namespace Packed

/-- The bit in a column and a row, eight columns to a byte with the leftmost highest. -/
def bit? (p : Packed) (x y : Nat) : Option Bool := do
  let bytes ← hexBytes? p.payload.toList
  let byte ← bytes[y * p.bytesPerRow + x / 8]?
  return byte.testBit (7 - x % 8)

/-- The bits of a packed raster of a size, without what fills up the rows. -/
def unpacked (p : Packed) (width height : Nat) : Raster Bool :=
  .tabulate width height fun x y => (p.bit? x y).getD false

/-- A packed raster that holds the ink of each pixel, and nothing else. -/
structure Holds (p : Packed) (r : Raster Rgb) : Prop where
  bytesPerRow_eq : p.bytesPerRow = r.width ⌈/⌉ 8
  totalBytes_eq : p.totalBytes = r.height * p.bytesPerRow
  length_payload : p.payload.length = 2 * p.totalBytes
  digits : ∀ c ∈ p.payload.toList, c ∈ upperHexDigits
  bits : ∀ y < r.height, ∀ x < 8 * p.bytesPerRow, ∃ b, p.bit? x y = some b ∧
    (b = true ↔ x < r.width ∧ ∃ q, r.pixel? x y = some q ∧ q.red + q.green + q.blue < 384)
  unpacked_eq : p.unpacked r.width r.height = inkMask r

end Packed

theorem bit?_pack {r : Raster Rgb} {x y : Nat} (hy : y < r.height) (hx : x < 8 * rowBytes r.width) :
    (pack r).bit? x y = some (inkAt r x y) := by
  have hbyte := getElem?_packedBytes hy (Nat.div_lt_of_lt_mul hx)
  have hcolumn : 8 * (x / 8) + x % 8 = x := Nat.div_add_mod x 8
  have hbit := testBit_byteOfBits (fun i => inkAt r (8 * (x / 8) + i) y) (Nat.mod_lt x (by decide))
  rw [hcolumn] at hbit
  rw [Packed.bit?, hexBytes?_payload]
  change (packedBytes r)[y * rowBytes r.width + x / 8]? >>= _ = _
  rw [hbyte]
  exact congrArg some hbit

theorem unpacked_pack (r : Raster Rgb) : (pack r).unpacked r.width r.height = inkMask r := by
  refine Raster.ext_pixel? (s := inkMask r) rfl rfl ?_
  intro x hx y hy
  change x < r.width at hx
  change y < r.height at hy
  have hrow : x < 8 * rowBytes r.width := by
    unfold rowBytes
    omega
  obtain ⟨ink, hink⟩ := (inkMask r).exists_pixel? hx hy
  rw [Packed.unpacked, Raster.pixel?_tabulate _ _ _ _ _ hx hy, bit?_pack hy hrow, inkAt_eq, hink]
  rfl

theorem pack_holds (r : Raster Rgb) : (pack r).Holds r where
  bytesPerRow_eq := (Nat.ceilDiv_eq_add_pred_div r.width 8).symm
  totalBytes_eq := rfl
  length_payload := length_payload_pack r
  digits _ hc := mem_upperHexDigits_of_upperHex hc
  bits _ hy _ hx := ⟨_, bit?_pack hy hx, inkAt_eq_true_iff⟩
  unpacked_eq := unpacked_pack r

theorem packedBytes_congr {r s : Raster Rgb} (hink : inkMask s = inkMask r) :
    packedBytes s = packedBytes r := by
  have hwidth : s.width = r.width := congrArg (fun mask : Raster Bool => mask.width) hink
  have hheight : s.height = r.height := congrArg (fun mask : Raster Bool => mask.height) hink
  have hrow : packedRow s = packedRow r := by
    funext y
    simp only [packedRow, inkAt_eq, hink, hwidth]
  rw [packedBytes, packedBytes, hrow, hheight]

/-- A packed raster holds the ink of each pixel and nothing else, so that rasters of the same size
are packed alike exactly if they have the same ink. -/
theorem pack_exact (r : Raster Rgb) :
    (pack r).Holds r ∧
      ∀ s : Raster Rgb, s.width = r.width → s.height = r.height →
        ((pack s).payload = (pack r).payload ↔ inkMask s = inkMask r) := by
  refine ⟨pack_holds r, ?_⟩
  intro s hwidth hheight
  constructor
  · intro hpayload
    have hsame : pack s = pack r := by
      rw [pack, pack, Packed.mk.injEq, hwidth, hheight]
      exact ⟨hpayload, rfl, rfl⟩
    rw [← unpacked_pack s, ← unpacked_pack r, hsame, hwidth, hheight]
  · intro hink
    exact congrArg upperHex (packedBytes_congr hink)

/-- Two rows of nine, ink and paper in turn. -/
def checks (ink paper : Rgb) : Raster Rgb :=
  .tabulate 9 2 fun x y => if (x + y) % 2 = 0 then ink else paper

theorem checks_packed_alike :
    let grey := checks ⟨127, 128, 128⟩ ⟨128, 128, 128⟩
    let black := checks ⟨0, 0, 0⟩ Rgb.white
    black.width = grey.width ∧ black.height = grey.height ∧ (pack grey).Holds grey ∧
      (pack grey).payload = "AA805500" ∧
      ((pack black).payload = (pack grey).payload ↔ inkMask black = inkMask grey) := by
  intro grey black
  have hexact := pack_exact grey
  have hpayload : (pack grey).payload = "AA805500" := by decide +kernel
  exact ⟨rfl, rfl, hexact.1, hpayload, hexact.2 black rfl rfl⟩

end ThermalLabel.Image
