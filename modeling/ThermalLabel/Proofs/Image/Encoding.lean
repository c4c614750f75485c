import Mathlib
import ThermalLabel.Proofs.Fallible
import ThermalLabel.Proofs.Image.Fitting
import ThermalLabel.Proofs.Image.Packing
/-!
# Encoding with given tools

Decoding, turning upright, resizing and writing are the business of a library of pictures. With any
such library every picture of ordinary sides is encoded for every box, at the sides that fit the
box, and the bitmap is made of exactly the pixels that are shown.
-/

namespace ThermalLabel.Image

/-! ## Scaling to given sides -/

theorem width_scaleSides (w h : Nat) (r : Raster Rgba) : (scaleSides w h r).width = w := by
  have hacross (r : Raster Rgba) : (if r.width = w then r else scaleWidth w r).width = w := by
    split
    · assumption
    · rfl
  have hdown (r : Raster Rgba) :
      (if r.height = h then r else scaleHeight h r).width = r.width := by
    split <;> rfl
  simp only [scaleSides]
  split
  · exact hacross _
  · exact (hdown _).trans (hacross r)

theorem height_scaleSides (w h : Nat) (r : Raster Rgba) : (scaleSides w h r).height = h := by
  have hacross (r : Raster Rgba) :
      (if r.width = w then r else scaleWidth w r).height = r.height := by
    split <;> rfl
  have hdown (r : Raster Rgba) : (if r.height = h then r else scaleHeight h r).height = h := by
    split
    · assumption
    · rfl
  simp only [scaleSides]
  split
  · exact (hacross _).trans (hdown r)
  · exact hdown _

theorem resample_self (r : Raster Rgba) : resample r.width r.height r = r :=
  if_pos ⟨rfl, rfl⟩

theorem width_resample (w h : Nat) (r : Raster Rgba) : (resample w h r).width = w := by
  unfold resample
  split
  · rename_i hsides
    exact hsides.1
  · exact width_scaleSides w h _

theorem height_resample (w h : Nat) (r : Raster Rgba) : (resample w h r).height = h := by
  unfold resample
  split
  · rename_i hsides
    exact hsides.2
  · exact height_scaleSides w h _

/-! ## The sides of a picture that is read from a file -/

/-- At least one pixel in each direction, and no more in all than are read. -/
def Raster.Ordinary {α : Type} (r : Raster α) : Prop :=
  0 < r.width ∧ 0 < r.height ∧ r.width * r.height ≤ maxPixels

theorem ordinary_of_checkSides {width height : Int} {w h : Nat}
    (hsides : checkSides width height = .ok (w, h)) :
    0 < w ∧ 0 < h ∧ w * h ≤ maxPixels := by
  unfold checkSides at hsides
  split at hsides
  · cases hsides
  · simp only at hsides
    split at hsides
    · cases hsides
    · cases hsides
      exact ⟨by omega, by omega, by omega⟩

theorem ordinary_of_decodePlain {kind : PlainKind} {bytes : List UInt8} {picture : Picture}
    (h : decodePlain kind bytes = .ok picture) : picture.samples.Ordinary := by
  simp only [decodePlain, bind_eq_ok_iff] at h
  obtain ⟨⟨width, height, rest⟩, -, ⟨w, h'⟩, hsides, h⟩ := h
  split at h
  · cases h
  · cases h
    exact ordinary_of_checkSides hsides

theorem decodeCompressed_ne_ok (start : List UInt8) (picture : Picture) :
    decodeCompressed start ≠ .ok picture := by
  intro h
  simp only [decodeCompressed] at h
  split at h
  · cases h
  · obtain ⟨_, _, h⟩ := bind_eq_ok_iff.1 h
    cases h

/-- A picture that is read from the bytes of a file is of ordinary sides. -/
theorem ordinary_of_decode {data : ByteArray} {picture : Picture}
    (h : (ImageFile.bytes data).decode = .ok picture) : picture.samples.Ordinary := by
  simp only [ImageFile.decode] at h
  split at h
  · exact absurd h (decodeCompressed_ne_ok _ _)
  · split at h
    · split at h
      · split at h
        · exact ordinary_of_decodePlain h
        · cases h
      · cases h
    · cases h

theorem Raster.Ordinary.upright {α : Type} [Inhabited α] {r : Raster α} (h : r.Ordinary)
    (tag : Nat) : (upright tag r).Ordinary := by
  obtain ⟨hwidth, hheight, hpixels⟩ := h
  unfold Image.upright
  split
  all_goals simp only [Raster.Ordinary, width_tabulate, height_tabulate]
  all_goals grind

/-! ## Tools -/

/-- What a library of pictures is asked for: it scales to the sides it is given, and what it writes
are bytes. -/
structure Tools where
  decode : ImageFile → Except DecodeError Picture
  /-- The colours of a picture, turned the way the camera was held. -/
  upright : Picture → Raster Rgba
  resize : Nat → Nat → Raster Rgba → Raster Rgba
  width_resize : ∀ w h r, 0 < w → 0 < h → (resize w h r).width = w
  height_resize : ∀ w h r, 0 < w → 0 < h → (resize w h r).height = h
  write : Raster Rgb → List Nat
  write_lt : ∀ r, ∀ b ∈ write r, b < 256

namespace Tools

/-- Colours at the sides that fit a box, resized only if their own do not. -/
def fitted (t : Tools) (colours : Raster Rgba) (maxWidth maxHeight : Int) :
    Except NumberError (Raster Rgba) := do
  let sides ← fitWithin ⟨colours.width, colours.height⟩ maxWidth maxHeight
  if sides = ⟨colours.width, colours.height⟩ then
    return colours
  return t.resize sides.width.toNat sides.height.toNat colours

def encode (t : Tools) (file : ImageFile) (maxWidth maxHeight : Int) :
    Except EncodeError Encoded := do
  let picture ← (t.decode file).mapError .undecodable
  let colours ← (t.fitted (t.upright picture) maxWidth maxHeight).mapError .number
  let flat := flattenOnWhite colours
  return ⟨pack flat, flat⟩

/-- The tools of this library, with a writer of picture files. -/
def own (write : Raster Rgb → List Nat) (write_lt : ∀ r, ∀ b ∈ write r, b < 256) : Tools where
  decode := ImageFile.decode
  upright picture := Image.upright picture.orientation picture.toRgba
  resize := resample
  width_resize w h r _ _ := width_resample w h r
  height_resize w h r _ _ := height_resample w h r
  write := write
  write_lt := write_lt

section

variable (write : Raster Rgb → List Nat) (write_lt : ∀ r, ∀ b ∈ write r, b < 256)

theorem fitted_own (colours : Raster Rgba) (maxWidth maxHeight : Int) :
    (own write write_lt).fitted colours maxWidth maxHeight =
      (fitWithin ⟨colours.width, colours.height⟩ maxWidth maxHeight).map fun sides =>
        resample sides.width.toNat sides.height.toNat colours := by
  rw [fitted]
  cases fitWithin ⟨colours.width, colours.height⟩ maxWidth maxHeight with
  | error err => rfl
  | ok sides =>
    by_cases hsides : sides = ⟨colours.width, colours.height⟩
    · subst hsides
      exact (if_pos rfl).trans (congrArg Except.ok (resample_self colours).symm)
    · exact if_neg hsides

/-- Encoding with the tools of this library is what this library does. -/
theorem encode_own : (own write write_lt).encode = Image.encode := by
  funext file maxWidth maxHeight
  simp only [encode, Image.encode, encodePicture, fitted_own]
  refine bind_congr fun picture => ?_
  simp only [own]
  cases fitWithin ⟨(Image.upright picture.orientation picture.toRgba).width,
    (Image.upright picture.orientation picture.toRgba).height⟩ maxWidth maxHeight with
  | error err => rfl
  | ok sides => rfl

end

variable (t : Tools) {file : ImageFile} {picture : Picture} {colours : Raster Rgba}
  {maxWidth maxHeight : Int}

theorem exists_fitted (hcolours : colours.Ordinary) (hmaxWidth : 0 < maxWidth)
    (hmaxHeight : 0 < maxHeight) :
    ∃ scaled, t.fitted colours maxWidth maxHeight = .ok scaled ∧
      fitWithin ⟨colours.width, colours.height⟩ maxWidth maxHeight =
        .ok ⟨scaled.width, scaled.height⟩ ∧
      IsLength scaled.width ∧ IsLength scaled.height := by
  obtain ⟨hwidth, hheight, hpixels⟩ := hcolours
  -- No side alone is longer than there are pixels.
  have hshort : maxPixels < 2 ^ 53 := by decide
  have hwidth' : colours.width ≤ maxPixels :=
    (Nat.le_mul_of_pos_right _ hheight).trans hpixels
  have hheight' : colours.height ≤ maxPixels :=
    (Nat.le_mul_of_pos_left _ hwidth).trans hpixels
  obtain ⟨sides, hsides, hlength, hlength'⟩ := exists_fitWithin
    (s := ⟨colours.width, colours.height⟩) (by simpa using hwidth) (by dsimp only; omega)
    (by simpa using hheight) (by dsimp only; omega) hmaxWidth hmaxHeight
  have hfitted : t.fitted colours maxWidth maxHeight =
      .ok (if sides = ⟨colours.width, colours.height⟩ then colours
        else t.resize sides.width.toNat sides.height.toNat colours) := by
    rw [fitted, hsides]
    exact (apply_ite _ _ _ _).symm
  refine ⟨_, hfitted, ?_⟩
  by_cases hsame : sides = ⟨colours.width, colours.height⟩
  · rw [if_pos hsame, hsides]
    subst hsame
    exact ⟨rfl, hlength, hlength'⟩
  · have hpos : 0 < sides.width.toNat := by
      have hone := hlength.1
      omega
    have hpos' : 0 < sides.height.toNat := by
      have hone := hlength'.1
      omega
    have htoNat : (sides.width.toNat : Int) = sides.width := by omega
    have htoNat' : (sides.height.toNat : Int) = sides.height := by omega
    rw [if_neg hsame, hsides, t.width_resize _ _ _ hpos hpos', t.height_resize _ _ _ hpos hpos',
      htoNat, htoNat']
    exact ⟨rfl, hlength, hlength'⟩

/-- Every picture that is decoded to ordinary sides is encoded, at the sides that fit the box. -/
theorem exists_encode (hdecode : t.decode file = .ok picture)
    (hpicture : (t.upright picture).Ordinary) (hmaxWidth : 0 < maxWidth)
    (hmaxHeight : 0 < maxHeight) :
    ∃ shown, t.encode file maxWidth maxHeight = .ok ⟨pack shown, shown⟩ ∧
      fitWithin ⟨(t.upright picture).width, (t.upright picture).height⟩ maxWidth maxHeight =
        .ok ⟨shown.width, shown.height⟩ ∧
      IsLength shown.width ∧ IsLength shown.height := by
  obtain ⟨scaled, hscaled, hsides, hlengths⟩ :=
    t.exists_fitted hpicture hmaxWidth hmaxHeight
  refine ⟨flattenOnWhite scaled, ?_, hsides, hlengths⟩
  rw [encode, hdecode]
  change (t.fitted _ _ _).mapError _ >>= _ = _
  rw [hscaled]
  rfl

end Tools
end ThermalLabel.Image
