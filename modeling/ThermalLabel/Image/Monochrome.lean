import ThermalLabel.Image.Raster
import ThermalLabel.Text.Bytes
/-!
# Monochrome bitmaps

A picture is laid on white and reduced to ink and paper by its mean level. The ink mask is packed
row by row, eight pixels to a byte with the leftmost in the highest bit; the last byte of a row is
filled with paper.
-/

namespace ThermalLabel.Image

/-- A colour value of given opacity laid on white. -/
def channelOnWhite (c a : Nat) : Nat :=
  let blend := 255 * (255 - a)
  let out := 255 * a + blend
  let share := a * 255 * 255 * 128 / out
  let t := c * share + 255 * (255 * 128 - share) + 16384
  (t / 256 + t) / 256 / 128

def onWhite (p : Rgba) : Rgb :=
  if p.alpha = 0 then Rgb.white
  else ⟨channelOnWhite p.red p.alpha, channelOnWhite p.green p.alpha, channelOnWhite p.blue p.alpha⟩

def flattenOnWhite (r : Raster Rgba) : Raster Rgb := r.map onWhite

/-- Mean levels below this are ink. -/
def inkThreshold : Nat := 128

def isInk (p : Rgb) : Bool := p.red + p.green + p.blue < 3 * inkThreshold

/-- Bytes to a row of so many pixels. -/
def rowBytes (width : Nat) : Nat := (width + 7) / 8

/-- Whether a position prints; beyond the right end of a row nothing does. -/
def inkAt (r : Raster Rgb) (x y : Nat) : Bool :=
  match r.pixel? x y with
  | some p => isInk p
  | none => false

/-- Eight bits as a byte, the first one highest. -/
def byteOfBits (bit : Nat → Bool) : Nat :=
  (List.range 8).foldl (fun n i => 2 * n + (bit i).toNat) 0

def packedRow (r : Raster Rgb) (y : Nat) : List Nat :=
  (List.range (rowBytes r.width)).map fun b => byteOfBits fun i => inkAt r (8 * b + i) y

/-- The bytes of a raster, row by row. -/
def packedBytes (r : Raster Rgb) : List Nat :=
  (List.range r.height).flatMap (packedRow r)

/-- A packed raster: its bytes as digits, how many there are, and how many to a row. -/
structure Packed where
  payload : String
  totalBytes : Nat
  bytesPerRow : Nat
deriving DecidableEq, Repr

def pack (r : Raster Rgb) : Packed where
  payload := upperHex (packedBytes r)
  totalBytes := r.height * rowBytes r.width
  bytesPerRow := rowBytes r.width

end ThermalLabel.Image
