import ThermalLabel.Editor.Edit
/-!
# The state of a session

A session holds the label being edited, what is selected, the zoom, and two histories: the labels
before the edits that can be undone and the labels after those that can be redone, the nearest
first. A label that is committed starts a new future.
-/

namespace ThermalLabel.Editor

/-- An edit with the label on its other side. -/
structure Entry where
  name : EditName
  label : Label
deriving DecidableEq

structure Session where
  label : Label
  /-- At most this many edits can be undone. -/
  historyLimit : Int
  selectedElement : ElementRef
  selectedSection : Option SectionName
  zoom : Float
  /-- The edits that can be undone, the latest first. -/
  past : List Entry
  /-- The edits that can be redone, the next first. -/
  future : List Entry

def defaultHistoryLimit : Int := 50

def defaultZoom : Float := 1.25

/-- The past of a session with one more entry. Beyond the limit the oldest entry is forgotten. -/
def remember (limit : Int) (entry : Entry) (past : List Entry) : List Entry :=
  if limit < (entry :: past).length then (entry :: past).dropLast else entry :: past

namespace Session

def start (label : Label) (historyLimit : Int) : Session where
  label := label
  historyLimit := historyLimit
  selectedElement := .nothing
  selectedSection := none
  zoom := defaultZoom
  past := []
  future := []

def canUndo (s : Session) : Bool := !s.past.isEmpty

def canRedo (s : Session) : Bool := !s.future.isEmpty

/-- The edits that can be undone, from first to last. -/
def history (s : Session) : List EditName := s.past.reverse.map Entry.name

def deselect (s : Session) : Session :=
  { s with selectedElement := .nothing, selectedSection := none }

/-- A label takes the place of the current one, which can be brought back. -/
def commit (s : Session) (name : EditName) (label : Label) : Session :=
  { s with
    label := label
    past := remember s.historyLimit ⟨name, s.label⟩ s.past
    future := [] }

/-- What is selected is not on the label any more. -/
def selectionIsStale (s : Session) : Bool :=
  s.selectedElement.isPresent && (find? s.label s.selectedElement).isNone

/-- A selection that is not on the label is dropped. -/
def dropStaleSelection (s : Session) : Session :=
  if s.selectionIsStale then s.deselect else s

/-- The latest edit taken back, if there is one. -/
def undo? (s : Session) : Option Session :=
  match s.past with
  | [] => none
  | entry :: past =>
    some (dropStaleSelection { s with
      label := entry.label
      past := past
      future := ⟨entry.name, s.label⟩ :: s.future })

/-- The next edit brought back, if there is one. -/
def redo? (s : Session) : Option Session :=
  match s.future with
  | [] => none
  | entry :: future =>
    some (dropStaleSelection { s with
      label := entry.label
      past := ⟨entry.name, s.label⟩ :: s.past
      future := future })

/-- An element selected, with its section unless that is left out. The element stays selected even
if there is no such section. -/
def select (s : Session) (target : ElementRef) (place : Option SectionRef) :
    Session × Except EditError Unit :=
  match place with
  | none => ({ s with selectedElement := target, selectedSection := none }, .ok ())
  | some (.ok name) => ({ s with selectedElement := target, selectedSection := some name }, .ok ())
  | some (.error e) => ({ s with selectedElement := target }, .error (.unknownSection e))

def setZoom (s : Session) (zoom : Float) : Session := { s with zoom := clampZoom zoom }

end Session
end ThermalLabel.Editor
