import ThermalLabel.Editor.State
/-!
# Edits as actions

An action reads a session and changes it step by step. It may be refused at any step, and what it
has changed by then stays changed. Each edit of a client is such an action: it looks up what it is
about, checks what it is given, and commits the label that comes of it.
-/

namespace ThermalLabel.Editor

open Schema

/-- What happens in a session, until it is done or refused. -/
abbrev Action := EStateM EditError Session

namespace Action

/-- What was found out so far. A refusal ends the action. -/
def check {α : Type} : Except EditError α → Action α
  | .ok a => pure a
  | .error e => throw e

def commit (name : EditName) (label : Label) : Action Unit := modify (·.commit name label)

def deselect : Action Unit := modify Session.deselect

/-- An element added to a section. That its id is free is found out before the section is. -/
def addElement (place : SectionRef) (e : Element) : Action (Option Element) := do
  let s ← get
  match s.label.find? e.id with
  | some (name, _) => throw (.duplicateId e.id name)
  | none =>
    let name ← check (sectionOf place)
    commit .addElement (s.label.modifyPart name (·.push e))
    return none

def updateElement (place : SectionRef) (target : ElementRef) (changes : List (String × Json)) :
    Action (Option Element) := do
  let s ← get
  let name ← check (sectionOf place)
  let e ← check (elementOf s.label name target)
  match takenId? s.label e changes with
  | some taken => throw (.duplicateId taken name)
  | none =>
    let new ← check ((changed e changes).toExcept.mapError .invalid)
    commit .updateElement (s.label.modifyPart name (·.replace e.id new))
    return some new

/-- An element removed. It does not stay selected. -/
def removeElement (place : SectionRef) (target : ElementRef) : Action (Option Element) := do
  let s ← get
  let name ← check (sectionOf place)
  let e ← check (elementOf s.label name target)
  commit .removeElement (s.label.modifyPart name (·.without e.id))
  if s.selectedElement.sameId target then deselect
  return none

/-- An encoded image attached, if its sizes can be those of a bitmap. -/
def setImage (place : SectionRef) (target : ElementRef) (image : ImageEncoding) :
    Action (Option Element) := do
  let bitmap ← check (image.toBitmap.toExcept.mapError .invalid)
  updateElement place target (imageChanges image bitmap)

def setSectionHeight (place : SectionRef) (height : Float) : Action (Option Element) := do
  let s ← get
  let height := atLeast minSectionHeight (atMost maxSectionHeight height)
  let name ← check (sectionOf place)
  commit .setSectionHeight (s.label.modifyPart name ({ · with height := height }))
  return none

def setCanvasWidth (width : Float) : Action (Option Element) := do
  let s ← get
  let width := atLeast minCanvasWidth (atMost maxCanvasWidth width)
  commit .setCanvasWidth { s.label with canvasWidth := width }
  return none

/-- A whole label committed. What was selected on the one before is forgotten. -/
def replaceLabel (name : EditName) (label : Label) : Action (Option Element) := do
  commit name label
  deselect
  return none

/-- A tool dropped. The element is made first; adding it may still be refused. -/
def dropTool (event : ToolDrop) (freshId : String) : Action (Option Element) := do
  let e := droppedElement freshId event.tool
  let _ ← addElement (.ok event.target) e
  return some e

/-- An element dragged. Where it goes is found out for each direction in turn; in another section
only the first one counts. -/
def moveElement (event : ElementMove) : Action (Option Element) := do
  let s ← get
  let e ← check (elementOf s.label event.source (.id event.elementId))
  let x ← check ((draggedTo s.zoom e.x event.deltaX).mapError .number)
  if event.source = event.target then
    let y ← check ((draggedTo s.zoom e.y event.deltaY).mapError .number)
    updateElement (.ok event.source) (.id e.id) [("x", .int x), ("y", .int y)]
  else
    let moved := { e with x := Float.ofInt x, y := dropPosition }
    let label := s.label.modifyPart event.source (·.without e.id)
    commit .moveElement (label.modifyPart event.target (·.push moved))
    return some moved

/-- The action of an edit, with the element that the client sees. -/
def ofEdit : Edit → Action (Option Element)
  | .add place e => addElement place e
  | .update place target changes =>
    match reservedName? changes with
    | some name => throw (.reservedName name)
    | none => updateElement place target changes
  | .remove place target => removeElement place target
  | .setImageKey place target key => updateElement place target (imageKeyChanges key)
  | .setImage place target image => setImage place target image
  | .setSectionHeight place height => setSectionHeight place height
  | .setCanvasWidth width => setCanvasWidth width
  | .clear => do
    let s ← get
    replaceLabel .clearCanvas { Label.blank with canvasWidth := s.label.canvasWidth }
  | .setTemplate label => replaceLabel .setTemplate label
  | .dropTool event freshId => dropTool event freshId
  | .moveElement event => moveElement event

end Action
end ThermalLabel.Editor
