import ThermalLabel.Label.Basic
import ThermalLabel.Schema.Record
import ThermalLabel.Schema.Scalar
/-!
# Labels as documents

Labels, elements and bitmaps are read from objects and written to objects. Their members have two
spellings; written in either of them, a label reads back as itself.
-/

namespace ThermalLabel

open Schema

namespace Bitmap

namespace Field

def payload : FieldName := .plain "hex"

def totalBytes : FieldName := ⟨"totalBytes", "total_bytes"⟩

def bytesPerRow : FieldName := ⟨"bytesPerRow", "bytes_per_row"⟩

end Field

/-- A bitmap from the members of an object. -/
def ofMembers (members : List (String × Json)) : Checked Bitmap :=
  Bitmap.mk <$> required Field.payload readText members
    <*> required Field.totalBytes readNat members
    <*> required Field.bytesPerRow readNat members

def read (origin : Origin) : Json → Checked Bitmap :=
  readRecord origin "EmbeddedBitmap" ofMembers

def toJson (spelling : Spelling) (b : Bitmap) : Json :=
  .obj [(Field.payload.spelled spelling, .str b.payload),
    (Field.totalBytes.spelled spelling, .int b.totalBytes),
    (Field.bytesPerRow.spelled spelling, .int b.bytesPerRow)]

end Bitmap

namespace Element

namespace Field

def id : FieldName := .plain "id"

def kind : FieldName := .plain "type"

def x : FieldName := .plain "x"

def y : FieldName := .plain "y"

def width : FieldName := .plain "width"

def height : FieldName := .plain "height"

def content : FieldName := .plain "content"

def isDynamic : FieldName := ⟨"isDynamic", "is_dynamic"⟩

def dataSource : FieldName := ⟨"dataSource", "data_source"⟩

def imageKey : FieldName := ⟨"imageKey", "image_key"⟩

def fontSize : FieldName := ⟨"fontSize", "font_size"⟩

def fontBold : FieldName := ⟨"fontBold", "font_bold"⟩

def rotation : FieldName := .plain "rotation"

def maxChars : FieldName := ⟨"maxChars", "max_chars"⟩

def barcodeKind : FieldName := ⟨"barcodeType", "barcode_type"⟩

def showLabel : FieldName := ⟨"showLabel", "show_label"⟩

def bitmap : FieldName := ⟨"zplImage", "zpl_image"⟩

def imageData : FieldName := ⟨"imageBase64", "image_base64"⟩

end Field

/-- A field that may be absent or null. -/
def optional {α : Type} (f : FieldName) (check : Json → Checked α)
    (members : List (String × Json)) : Checked (Option α) :=
  withDefault f none (readOptional check) members

/-- The fields of an element, each read on its own. -/
def fieldsOf (origin : Origin) (members : List (String × Json)) : Checked Element :=
  Element.mk <$> required Field.id readText members
    <*> withDefault Field.kind .text (readName ElementKind.names) members
    <*> withDefault Field.x 0.0 readFloat members
    <*> withDefault Field.y 0.0 readFloat members
    <*> optional Field.width readFloat members
    <*> optional Field.height readFloat members
    <*> optional Field.content readText members
    <*> withDefault Field.isDynamic false readBool members
    <*> optional Field.dataSource readText members
    <*> optional Field.imageKey readText members
    <*> optional Field.fontSize readFloat members
    <*> optional Field.fontBold readBool members
    <*> optional Field.rotation readInt members
    <*> optional Field.maxChars readNat members
    <*> optional Field.barcodeKind (readName BarcodeKind.names) members
    <*> optional Field.showLabel readBool members
    <*> optional Field.bitmap (Bitmap.read origin) members
    <*> optional Field.imageData readText members

/-- Two sources for one picture are refused, once every field is right. -/
def checkImageSources (e : Element) : Checked Element :=
  if e.hasTwoImageSources then .fault .twoImageSources else .ok e

/-- An element from the members of an object. -/
def ofMembers (origin : Origin) (members : List (String × Json)) : Checked Element :=
  (fieldsOf origin members).andThen checkImageSources

def read (origin : Origin) : Json → Checked Element :=
  readRecord origin "PlacedElement" (ofMembers origin)

/-- The members of a written element, in the order of its fields. -/
def toMembers (spelling : Spelling) (e : Element) : List (String × Json) :=
  [(Field.id.spelled spelling, .str e.id),
    (Field.kind.spelled spelling, .str e.kind.name),
    (Field.x.spelled spelling, .float e.x),
    (Field.y.spelled spelling, .float e.y),
    (Field.width.spelled spelling, .ofOption .float e.width),
    (Field.height.spelled spelling, .ofOption .float e.height),
    (Field.content.spelled spelling, .ofOption .str e.content),
    (Field.isDynamic.spelled spelling, .bool e.isDynamic),
    (Field.dataSource.spelled spelling, .ofOption .str e.dataSource),
    (Field.imageKey.spelled spelling, .ofOption .str e.imageKey),
    (Field.fontSize.spelled spelling, .ofOption .float e.fontSize),
    (Field.fontBold.spelled spelling, .ofOption .bool e.fontBold),
    (Field.rotation.spelled spelling, .ofOption .int e.rotation),
    (Field.maxChars.spelled spelling, .ofOption (fun n : Nat => .int n) e.maxChars),
    (Field.barcodeKind.spelled spelling, .ofOption (fun k => .str k.name) e.barcodeKind),
    (Field.showLabel.spelled spelling, .ofOption .bool e.showLabel),
    (Field.bitmap.spelled spelling, .ofOption (Bitmap.toJson spelling) e.bitmap),
    (Field.imageData.spelled spelling, .ofOption .str e.imageData)]

def toJson (spelling : Spelling) (e : Element) : Json := .obj (e.toMembers spelling)

end Element

namespace LabelSection

namespace Field

def height : FieldName := .plain "height"

def elements : FieldName := .plain "elements"

end Field

def ofMembers (origin : Origin) (members : List (String × Json)) : Checked LabelSection :=
  LabelSection.mk <$> required Field.height readFloat members
    <*> withDefault Field.elements [] (readList (Element.read origin)) members

def read (origin : Origin) : Json → Checked LabelSection :=
  readRecord origin "Section" (ofMembers origin)

def toJson (spelling : Spelling) (s : LabelSection) : Json :=
  .obj [(Field.height.spelled spelling, .float s.height),
    (Field.elements.spelled spelling, .arr (s.elements.map (Element.toJson spelling)))]

end LabelSection

namespace Label

namespace Field

def header : FieldName := .plain "header"

def body : FieldName := .plain "body"

def footer : FieldName := .plain "footer"

def canvasWidth : FieldName := ⟨"canvasWidth", "canvas_width"⟩

end Field

def ofMembers (origin : Origin) (members : List (String × Json)) : Checked Label :=
  Label.mk <$> withDefault Field.header blank.header (LabelSection.read origin) members
    <*> withDefault Field.body blank.body (LabelSection.read origin) members
    <*> withDefault Field.footer blank.footer (LabelSection.read origin) members
    <*> withDefault Field.canvasWidth blank.canvasWidth readFloat members

def read (origin : Origin) : Json → Checked Label :=
  readRecord origin "LabelDefinition" (ofMembers origin)

def toJson (spelling : Spelling) (l : Label) : Json :=
  .obj [(Field.header.spelled spelling, l.header.toJson spelling),
    (Field.body.spelled spelling, l.body.toJson spelling),
    (Field.footer.spelled spelling, l.footer.toJson spelling),
    (Field.canvasWidth.spelled spelling, .float l.canvasWidth)]

end Label
end ThermalLabel
