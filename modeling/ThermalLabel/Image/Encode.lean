import ThermalLabel.Image.FileFormat
import ThermalLabel.Image.Monochrome
import ThermalLabel.Image.Resample
/-!
# From image files to printable bitmaps

A picture is turned upright, shrunk to fit a box, laid on white and packed as ink. Shrinking keeps
the proportions of the sides; a picture that fits is never enlarged.
-/

namespace ThermalLabel.Image

/-- The sides of a picture, as a box asks for them. -/
structure Sides where
  width : Int
  height : Int
deriving DecidableEq, Repr

/-- A side changed in the proportion of two numbers, rounded. -/
def proportional (side num den : Int) : Except NumberError Int := do
  let ratio ← integerQuotient num den
  roundHalfUp ((← ofInteger side) * ratio)

/-- Sides that are at most as wide as a bound. -/
def narrowed (s : Sides) (maxWidth : Int) : Except NumberError Sides :=
  if maxWidth < s.width then
    (proportional s.height maxWidth s.width).map fun height => ⟨maxWidth, height⟩
  else .ok s

/-- Sides that are at most as high as a bound. -/
def lowered (s : Sides) (maxHeight : Int) : Except NumberError Sides :=
  if maxHeight < s.height then
    (proportional s.width maxHeight s.height).map fun width => ⟨width, maxHeight⟩
  else .ok s

/-- The sides of a picture shrunk into a box. No side falls below one pixel. -/
def fitWithin (s : Sides) (maxWidth maxHeight : Int) : Except NumberError Sides := do
  let s ← lowered (← narrowed s maxWidth) maxHeight
  return ⟨max 1 s.width, max 1 s.height⟩

/-- Why a file could not be made into a bitmap. -/
inductive EncodeError where
  | undecodable (cause : DecodeError)
  | number (cause : NumberError)
deriving DecidableEq, Repr

/-- Whether the file is to blame: its format is unknown, or it holds no complete picture of a
reasonable size. -/
def EncodeError.blamesFile : EncodeError → Bool
  | .undecodable (.header _) => false
  | .undecodable _ => true
  | .number _ => false

def EncodeError.message : EncodeError → String
  | .undecodable (.header cause) => cause.message
  | .undecodable cause => "Could not decode image: " ++ cause.message
  | .number cause => cause.message

/-- A bitmap with the picture that it was made of. -/
structure Encoded where
  packed : Packed
  preview : Raster Rgb

/-- An upright picture scaled into a box and packed. -/
def encodePicture (picture : Picture) (maxWidth maxHeight : Int) : Except NumberError Encoded := do
  let colours := upright picture.orientation picture.toRgba
  let sides ← fitWithin ⟨colours.width, colours.height⟩ maxWidth maxHeight
  let flat := flattenOnWhite (resample sides.width.toNat sides.height.toNat colours)
  return ⟨pack flat, flat⟩

/-- An image file scaled into a box and packed. -/
def encode (file : ImageFile) (maxWidth maxHeight : Int) : Except EncodeError Encoded := do
  let picture ← file.decode.mapError .undecodable
  (encodePicture picture maxWidth maxHeight).mapError .number

end ThermalLabel.Image
