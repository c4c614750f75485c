import ThermalLabel.Editor.Reference
import ThermalLabel.Label.DragEvent
import ThermalLabel.Label.ImageEncoding
import ThermalLabel.Label.Lookup
import ThermalLabel.Measure
/-!
# Edits of a label

What a client can ask for, and what each edit goes by. New elements need an id that no element of
the label has; changes to an element are read like a document, so that what an edit leaves behind
is an element that a document could hold. Drags end on a grid.
-/

namespace ThermalLabel.Editor

open Schema

inductive EditName where
  | addElement
  | updateElement
  | removeElement
  | setSectionHeight
  | setCanvasWidth
  | clearCanvas
  | setTemplate
  | moveElement
deriving DecidableEq, Repr

def EditName.text : EditName → String
  | addElement => "add_element"
  | updateElement => "update_element"
  | removeElement => "remove_element"
  | setSectionHeight => "set_section_height"
  | setCanvasWidth => "set_canvas_width"
  | clearCanvas => "clear_canvas"
  | setTemplate => "set_template"
  | moveElement => "move_element"

inductive Edit where
  | add (place : SectionRef) (element : Element)
  /-- Members written over those of an element. -/
  | update (place : SectionRef) (target : ElementRef) (changes : List (String × Json))
  | remove (place : SectionRef) (target : ElementRef)
  /-- A named picture in place of a bitmap. -/
  | setImageKey (place : SectionRef) (target : ElementRef) (key : Json)
  /-- An encoded image, whose size the element takes. -/
  | setImage (place : SectionRef) (target : ElementRef) (image : ImageEncoding)
  | setSectionHeight (place : SectionRef) (height : Float)
  | setCanvasWidth (width : Float)
  | clear
  | setTemplate (label : Label)
  /-- A tool dropped onto a section becomes an element of a fresh id. -/
  | dropTool (event : ToolDrop) (freshId : String)
  | moveElement (event : ElementMove)

/-- Pixels between the lines of the grid. -/
def gridSize : Int := 10

def snap (x : Float) : Except NumberError Int :=
  (roundHalfUp (x / 10.0)).map (· * gridSize)

def minSectionHeight : Float := 1.0

def maxSectionHeight : Float := 500.0

def minCanvasWidth : Float := 10.0

def maxCanvasWidth : Float := 104.0

/-- Where dropped elements start, from the left and the top of their section. -/
def dropPosition : Float := 10.0

def sectionOf (place : SectionRef) : Except EditError SectionName :=
  place.mapError .unknownSection

/-- The element that a client names in a section. -/
def elementOf (label : Label) (name : SectionName) (target : ElementRef) :
    Except EditError Element :=
  match target with
  | .id id =>
    match (label.part name).find? id with
    | some e => .ok e
    | none => .error (.notFound target name)
  | .other _ => .error (.notFound target name)

/-- The element that a client names in a section that it names. -/
def lookUp (label : Label) (place : SectionRef) (target : ElementRef) :
    Except EditError Element := do
  elementOf label (← sectionOf place) target

/-- The element that a client names, wherever it is. -/
def find? (label : Label) : ElementRef → Option (SectionName × Element)
  | .id id => label.find? id
  | .other _ => none

/-- Names that address an element and its section, and that no change may have. -/
def reservedNames : List String := ["self", "section", "element_id"]

/-- The first change of a reserved name. -/
def reservedName? (changes : List (String × Json)) : Option String :=
  (changes.map Prod.fst).find? reservedNames.contains

/-- The members of an element with changes written over them. -/
def changedMembers (e : Element) (changes : List (String × Json)) : List (String × Json) :=
  Json.overlay (e.toMembers .underscored) changes

/-- A changed id that another element has. -/
def takenId? (label : Label) (e : Element) (changes : List (String × Json)) : Option Text :=
  match Json.member? "id" (changedMembers e changes) with
  | some (.str new) => if new ≠ e.id ∧ label.hasId new then some new else none
  | _ => none

/-- An element with members written over its own, read as a document. -/
def changed (e : Element) (changes : List (String × Json)) : Checked Element :=
  Element.ofMembers .value (changedMembers e changes)

/-- The members that name a picture. A name in fact given takes the place of a bitmap. -/
def imageKeyChanges (key : Json) : List (String × Json) :=
  if key.isTruthy then [("image_key", key), ("image_base64", .null), ("zpl_image", .null)]
  else [("image_key", key)]

def imageChanges (image : ImageEncoding) (bitmap : Bitmap) : List (String × Json) :=
  [("image_base64", .str image.preview), ("zpl_image", bitmap.toJson .underscored),
    ("image_key", .null), ("width", .int image.width), ("height", .int image.height)]

def droppedElement (id : String) (tool : ElementKind) : Element where
  id := id
  kind := tool
  x := dropPosition
  y := dropPosition
  width := if tool = .box then some 100.0 else none
  height := if tool = .box then some 50.0 else none
  content := if tool = .text then some "New Text" else none
  isDynamic := false
  dataSource := none
  imageKey := none
  fontSize := some 12.0
  fontBold := none
  rotation := none
  maxChars := none
  barcodeKind := none
  showLabel := none
  bitmap := none
  imageData := none

/-- Where a coordinate goes that is dragged on a canvas of a zoom. Nothing leaves the canvas at the
top or left. -/
def draggedTo (zoom start distance : Float) : Except NumberError Int :=
  snap (atLeast 0.0 (start + screenToLogical distance zoom))

end ThermalLabel.Editor
