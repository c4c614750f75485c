import ThermalLabel.Image.Encode
import ThermalLabel.Label.Document
/-!
# Encoded images as documents

What encoding an image answers with: the digits of the bitmap, its sizes, and a picture to show.
A client hands it back to attach the bitmap to an element.
-/

namespace ThermalLabel

open Schema

structure ImageEncoding where
  payload : Text
  totalBytes : Int
  bytesPerRow : Int
  width : Int
  height : Int
  /-- The scaled picture as a data URL. -/
  preview : Text
deriving DecidableEq

namespace ImageEncoding

namespace Field

def payload : FieldName := ⟨"hexPayload", "hex_payload"⟩

def width : FieldName := .plain "width"

def height : FieldName := .plain "height"

def preview : FieldName := ⟨"previewImage", "preview_image"⟩

end Field

def ofMembers (members : List (String × Json)) : Checked ImageEncoding :=
  ImageEncoding.mk <$> required Field.payload readText members
    <*> required Bitmap.Field.totalBytes readInt members
    <*> required Bitmap.Field.bytesPerRow readInt members
    <*> required Field.width readInt members
    <*> required Field.height readInt members
    <*> required Field.preview readText members

def read (origin : Origin) : Json → Checked ImageEncoding :=
  readRecord origin "ImageEncodingResult" ofMembers

def toJson (spelling : Spelling) (r : ImageEncoding) : Json :=
  .obj [(Field.payload.spelled spelling, .str r.payload),
    (Bitmap.Field.totalBytes.spelled spelling, .int r.totalBytes),
    (Bitmap.Field.bytesPerRow.spelled spelling, .int r.bytesPerRow),
    (Field.width.spelled spelling, .int r.width),
    (Field.height.spelled spelling, .int r.height),
    (Field.preview.spelled spelling, .str r.preview)]

/-- An encoded image with its picture as a writer of picture files delivers it. -/
def ofEncoded (write : Image.Raster Image.Rgb → List Nat) (e : Image.Encoded) : ImageEncoding where
  payload := e.packed.payload
  totalBytes := e.packed.totalBytes
  bytesPerRow := e.packed.bytesPerRow
  width := e.preview.width
  height := e.preview.height
  preview := dataUrl (write e.preview) "image/png"

/-- The bitmap of an encoded image. Sizes below zero are refused. -/
def toBitmap (r : ImageEncoding) : Checked Bitmap :=
  Bitmap.ofMembers [("hex", .str r.payload), ("total_bytes", .int r.totalBytes),
    ("bytes_per_row", .int r.bytesPerRow)]

end ImageEncoding
end ThermalLabel
