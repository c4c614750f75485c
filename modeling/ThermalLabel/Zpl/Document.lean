import ThermalLabel.Zpl.Element
/-!
# Labels as printer documents

A document states the size of the label and then prints header, body and footer. The body repeats
once for each row, each copy below the one before; for the printer it appears once. An element that
cannot be compiled is left out.
-/

namespace ThermalLabel.Zpl

variable (data : SampleData) (mode : Mode)

/-- The height of a label with that many body rows, in millimetres. -/
def totalHeight (label : Label) (rows : Int) : Except NumberError Float := do
  let n ← ofInteger rows
  return label.header.height + label.body.height * n + label.footer.height

/-- How far a body row lies below the top, in millimetres; the footer follows the last one. -/
def rowOffset (label : Label) (index : Int) : Except NumberError Float := do
  let n ← ofInteger index
  return label.header.height + n * label.body.height

/-- The text of an element, empty if it cannot be compiled. -/
def fragment (e : Element) (place : Place) : Text :=
  match elementText data mode e place with
  | .ok text => text
  | .error _ => ""

def sectionText (elements : List Element) (place : Place) : Text :=
  Text.join (elements.map fun e => fragment data mode e place)

def rowText (label : Label) (index : Nat) : Except NumberError Text := do
  let offset ← rowOffset label index
  return sectionText data mode label.body.elements ⟨offset, data.recordOf mode index⟩

def documentText (label : Label) (requested : Int) : Except NumberError Text := do
  let rows := mode.bodyRows requested
  let height ← totalHeight label rows
  let heightDots ← millimetersToDots height
  let widthDots ← millimetersToDots label.canvasWidth
  let body ← (List.range rows.toNat).mapM (rowText data mode label)
  let footerOffset ← rowOffset label rows
  return "^XA\n^CI28\n" ++ "^LL" ++ toString heightDots ++ "\n" ++
    "^PW" ++ toString widthDots ++ "\n" ++
    sectionText data mode label.header.elements ⟨0.0, none⟩ ++
    Text.join body ++
    sectionText data mode label.footer.elements ⟨footerOffset, none⟩ ++ "^XZ"

end ThermalLabel.Zpl
