import ThermalLabel.Zpl.Command
import ThermalLabel.Measure
import ThermalLabel.SampleData
import ThermalLabel.Text.Cut
/-!
# Elements as printer commands

An element becomes its origin and the commands of its kind. An element whose position or size has
no whole number of dots has no commands.
-/

namespace ThermalLabel.Zpl

def boxBorder : Int := 2

def placeholderBorder : Int := 1

def placeholderFont : Int := 15

def defaultFontPoints : Float := 12.0

def defaultSquareBarcodeWidth : Float := 50.0

def defaultBarcodeHeight : Float := 50.0

def defaultImageSize : Float := 60.0

def pixelsPerMagnification : Float := 25.0

def maxMagnification : Int := 10

/-- Where an element is compiled: the vertical offset of its section and the record of its row. -/
structure Place where
  /-- In millimetres. -/
  offset : Float
  row : Option DataRecord

variable (data : SampleData) (mode : Mode)

def boxCommands (e : Element) : Except NumberError (List Command) := do
  let w ← pixelsToDots ((nonzero? e.width).getD 0.0)
  let h ← pixelsToDots ((nonzero? e.height).getD 0.0)
  return [.box w h boxBorder, .fieldEnd]

/-- A square barcode is magnified to its width, a linear one has the height of the element. -/
def barcodeCommands (e : Element) (content : Text) : Except NumberError (List Command) :=
  match e.barcodeKind with
  | some .qr => do
    let w := (nonzero? e.width).getD defaultSquareBarcodeWidth
    let m ← roundHalfUp (w / pixelsPerMagnification)
    return [.squareBarcode (max 1 (min maxMagnification m)), .fieldData ("QA," ++ content), .fieldEnd]
  | _ => do
    let h ← pixelsToDots ((nonzero? e.height).getD defaultBarcodeHeight)
    return [.linearBarcode (.ofDegrees e.rotation) h (e.showLabel.getD false),
      .fieldData content, .fieldEnd]

/-- The bitmap of an image, if it has one with any content. -/
def printableBitmap? (e : Element) : Option Bitmap :=
  e.bitmap.filter fun b => b.payload ≠ ""

/-- The bitmap of an image, or an outline at its place with the name of the picture. -/
def imageCommands (e : Element) (x y : Int) : Except NumberError (List Command) :=
  match printableBitmap? e with
  | some b => .ok [.graphic b.totalBytes b.bytesPerRow b.payload, .fieldEnd]
  | none => do
    let w ← pixelsToDots ((nonzero? e.width).getD defaultImageSize)
    let h ← pixelsToDots ((nonzero? e.height).getD defaultImageSize)
    let key := (nonempty? e.imageKey).getD "NONE"
    return [.box w h placeholderBorder, .fieldEnd, .fieldOrigin x y,
      .font .normal placeholderFont placeholderFont, .fieldData ("[IMG:" ++ key ++ "]"), .fieldEnd]

/-- The text a field shows. Names of data sources are never cut. -/
def shownText (e : Element) (content : Text) : Text :=
  match e.maxChars with
  | some n =>
    if n = 0 ∨ (e.isDynamic ∧ mode = .template) then content else cutText content (some n) ellipsis
  | none => content

def textCommands (e : Element) (content : Text) : Except NumberError (List Command) := do
  let size ← pointsToDots ((nonzero? e.fontSize).getD defaultFontPoints)
  return [.font (.ofDegrees e.rotation) size size, .fieldData (shownText mode e content), .fieldEnd]

/-- The commands that follow the origin of an element. -/
def fieldCommands (e : Element) (row : Option DataRecord) (x y : Int) :
    Except NumberError (List Command) :=
  match e.kind with
  | .box => boxCommands e
  | .barcode => barcodeCommands e (data.contentOf e mode row)
  | .image => imageCommands e x y
  | .text => textCommands mode e (data.contentOf e mode row)

/-- An element as commands: its origin in dots, then its field. -/
def elementCommands (e : Element) (place : Place) : Except NumberError (List Command) := do
  let x ← pixelsToDots e.x
  let top ← millimetersToDots place.offset
  let below ← pixelsToDots e.y
  let field ← fieldCommands data mode e place.row x (top + below)
  return .fieldOrigin x (top + below) :: field

def elementText (e : Element) (place : Place) : Except NumberError Text :=
  (elementCommands data mode e place).map writtenLine

end ThermalLabel.Zpl
