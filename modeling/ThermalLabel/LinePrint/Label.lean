import ThermalLabel.LinePrint.Line
import ThermalLabel.Measure
import ThermalLabel.SampleData
import ThermalLabel.Number.Written
/-!
# Labels as lines of characters

For printers without graphics a label becomes fixed-width text. Texts stand at their column, flat
wide boxes become rules, barcodes and pictures have no form in characters.
-/

namespace ThermalLabel.LinePrint

/-- Character columns to a millimetre: 48 on paper of 80 millimetres. -/
def columnsPerMillimeter : Float := 48.0 / 80.0

/-- Boxes flatter than this are rules. -/
def ruleHeight : Float := 5.0

/-- Boxes have to be wider than this to be rules. -/
def ruleWidth : Float := 20.0

/-- The character column of a distance in pixels. -/
def columnFor (px : Float) : Except NumberError Int :=
  floorOf (pixelsToMillimeters px * columnsPerMillimeter)

variable (data : SampleData) (mode : Mode)

/-- The text an element shows in characters, empty if it shows none. -/
def characters (e : Element) (row : Option DataRecord) : Except NumberError Text :=
  match e.kind with
  | .box => do
    let width := (nonzero? e.width).getD 0.0
    if (nonzero? e.height).getD 0.0 < ruleHeight ∧ ruleWidth < width then
      repeated '-' (max 1 (← columnFor width))
    else return ""
  | .text => .ok (data.contentOf e mode row)
  | .barcode => .ok ""
  | .image => .ok ""

/-- An element as an item of a line; one that shows nothing is none. -/
def itemOf (e : Element) (row : Option DataRecord) : Except NumberError (Option Item) := do
  let content ← characters data mode e row
  if content = "" then return none
  else return some ⟨e.y, ← columnFor e.x, content⟩

/-- The elements of a section as lines of text. -/
def sectionText (elements : List Element) (row : Option DataRecord) : Except NumberError Text := do
  let items ← elements.mapM fun e => itemOf data mode e row
  let lines ← (groupLines (items.filterMap id)).mapM Line.text
  return Text.join (lines.map (· ++ "\n"))

def rowText (elements : List Element) (index : Nat) : Except NumberError Text :=
  sectionText data mode elements (data.recordOf mode index)

def labelText (label : Label) (requested : Int) : Except NumberError Text := do
  let columns ← floorOf (label.canvasWidth * columnsPerMillimeter)
  let header ← sectionText data mode label.header.elements none
  let body ← (List.range (mode.bodyRows requested).toNat).mapM (rowText data mode label.body.elements)
  let footer ← sectionText data mode label.footer.elements none
  return "=== LINE PRINT MODE (FIXED WIDTH PREVIEW) ===\n" ++
    "Paper Width: " ++ generalText label.canvasWidth ++ "mm (Approx " ++ toString columns ++
    " chars)\n\n" ++ "--- HEADER ---\n" ++ header ++ "\n--- BODY ---\n" ++ Text.join body ++
    "\n--- FOOTER ---\n" ++ footer ++ "\n"

end ThermalLabel.LinePrint
