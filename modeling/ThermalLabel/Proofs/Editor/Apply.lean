import ThermalLabel.Editor.Edit
/-!
# Edits as functions of a label

What a label becomes by an edit, or why the edit is refused, without regard to the session in which
the edit is made.
-/

namespace ThermalLabel.Editor

open Schema

/-- What an edit leaves behind. -/
structure Edited where
  name : EditName
  label : Label
  /-- The element that the edit was about, if the client is to see it. -/
  element : Option Element

/-- An element added to a section. Its id must not occur on the label. -/
def addElement (label : Label) (place : SectionRef) (e : Element) : Except EditError Edited :=
  match label.find? e.id with
  | some (name, _) => .error (.duplicateId e.id name)
  | none => do
    let name ← sectionOf place
    return ⟨.addElement, label.modifyPart name (·.push e), none⟩

def updateElement (label : Label) (place : SectionRef) (target : ElementRef)
    (changes : List (String × Json)) : Except EditError Edited := do
  let name ← sectionOf place
  let e ← elementOf label name target
  match takenId? label e changes with
  | some taken => throw (.duplicateId taken name)
  | none =>
    let new ← (changed e changes).toExcept.mapError .invalid
    return ⟨.updateElement, label.modifyPart name (·.replace e.id new), some new⟩

def removeElement (label : Label) (place : SectionRef) (target : ElementRef) :
    Except EditError Edited := do
  let name ← sectionOf place
  let e ← elementOf label name target
  return ⟨.removeElement, label.modifyPart name (·.without e.id), none⟩

/-- An element dragged. Within its section it keeps its place in the order; in another one it
starts at the top, above all others. -/
def moveElement (zoom : Float) (label : Label) (event : ElementMove) : Except EditError Edited := do
  let e ← elementOf label event.source (.id event.elementId)
  let x ← (draggedTo zoom e.x event.deltaX).mapError .number
  if event.source = event.target then
    let y ← (draggedTo zoom e.y event.deltaY).mapError .number
    updateElement label (.ok event.source) (.id e.id) [("x", .int x), ("y", .int y)]
  else
    let moved := { e with x := Float.ofInt x, y := dropPosition }
    let label := label.modifyPart event.source (·.without e.id)
    return ⟨.moveElement, label.modifyPart event.target (·.push moved), some moved⟩

/-- What an edit makes of a label on a canvas of a zoom. -/
def Edit.apply (zoom : Float) (label : Label) : Edit → Except EditError Edited
  | add place e => addElement label place e
  | update place target changes =>
    match reservedName? changes with
    | some name => .error (.reservedName name)
    | none => updateElement label place target changes
  | remove place target => removeElement label place target
  | setImageKey place target key => updateElement label place target (imageKeyChanges key)
  | setImage place target image => do
    let bitmap ← image.toBitmap.toExcept.mapError .invalid
    updateElement label place target (imageChanges image bitmap)
  | setSectionHeight place height => do
    let name ← sectionOf place
    let height := atLeast minSectionHeight (atMost maxSectionHeight height)
    return ⟨.setSectionHeight, label.modifyPart name ({ · with height := height }), none⟩
  | setCanvasWidth width =>
    let width := atLeast minCanvasWidth (atMost maxCanvasWidth width)
    .ok ⟨.setCanvasWidth, { label with canvasWidth := width }, none⟩
  | clear => .ok ⟨.clearCanvas, { Label.blank with canvasWidth := label.canvasWidth }, none⟩
  | setTemplate new => .ok ⟨.setTemplate, new, none⟩
  | dropTool event freshId =>
    let e := droppedElement freshId event.tool
    (addElement label (.ok event.target) e).map fun r => { r with element := some e }
  | moveElement event => Editor.moveElement zoom label event

end ThermalLabel.Editor
