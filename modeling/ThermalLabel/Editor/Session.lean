import ThermalLabel.Editor.Action
/-!
# Editing sessions

A client works in a session by one operation after the other. Each leaves a session behind, whether
it is refused or not.
-/

namespace ThermalLabel.Editor

/-- An edit in a session, and the element that the client sees. -/
def Session.perform (s : Session) (edit : Edit) : Session × Except EditError (Option Element) :=
  match (Action.ofEdit edit).run s with
  | .ok element next => (next, .ok element)
  | .error e next => (next, .error e)

/-- What a client can do in a session. -/
inductive Operation where
  | edit (edit : Edit)
  | select (target : ElementRef) (place : Option SectionRef)
  | setZoom (zoom : Float)
  | undo
  | redo

inductive Outcome where
  | done
  | element (e : Element)
  /-- Whether there was anything to undo or redo. -/
  | moved (happened : Bool)
deriving DecidableEq

def Outcome.ofElement : Option Element → Outcome
  | some e => element e
  | none => done

namespace Session

def step (s : Session) : Operation → Session × Except EditError Outcome
  | .edit e =>
    let (next, result) := s.perform e
    (next, result.map Outcome.ofElement)
  | .select target place =>
    let (next, result) := s.select target place
    (next, result.map fun _ => .done)
  | .setZoom zoom => (s.setZoom zoom, .ok .done)
  | .undo =>
    match s.undo? with
    | some next => (next, .ok (.moved true))
    | none => (s, .ok (.moved false))
  | .redo =>
    match s.redo? with
    | some next => (next, .ok (.moved true))
    | none => (s, .ok (.moved false))

def run (s : Session) (operations : List Operation) : Session :=
  operations.foldl (fun s op => (s.step op).1) s

def toJson (s : Session) : Json :=
  .obj [("label", s.label.toJson .joined),
    ("selected", .arr [s.selectedElement.toJson, .ofOption (fun n => .str n.name) s.selectedSection]),
    ("zoom", .float s.zoom),
    ("history", .arr (s.history.map fun n => .str n.text)),
    ("can_undo", .bool s.canUndo),
    ("can_redo", .bool s.canRedo)]

end Session
end ThermalLabel.Editor
