import ThermalLabel.Label.Document
/-!
# Drag events

A drag ends either with a tool of the toolbox dropped onto a section or with an element moved by a
distance on the screen. A written event carries its kind as a tag.
-/

namespace ThermalLabel

open Schema

structure ToolDrop where
  tool : ElementKind
  target : SectionName
deriving DecidableEq

/-- An element dragged by a distance in screen pixels. -/
structure ElementMove where
  elementId : Text
  source : SectionName
  target : SectionName
  deltaX : Float
  deltaY : Float
deriving DecidableEq

inductive DragEvent where
  | drop (event : ToolDrop)
  | move (event : ElementMove)
deriving DecidableEq

namespace ToolDrop

def tag : String := "tool-drop"

private def make (_ : Unit) (tool : ElementKind) (target : SectionName) : ToolDrop := ⟨tool, target⟩

def ofMembers (members : List (String × Json)) : Checked ToolDrop :=
  make <$> withDefault (.plain "kind") () (readLiteral tag) members
    <*> required (.plain "tool_type") (readName ElementKind.names) members
    <*> required (.plain "target_section") (readName SectionName.names) members

def read (origin : Origin) : Json → Checked ToolDrop := readRecord origin "ToolDrop" ofMembers

def toJson (d : ToolDrop) : Json :=
  .obj [("kind", .str tag), ("tool_type", .str d.tool.name), ("target_section", .str d.target.name)]

end ToolDrop

namespace ElementMove

def tag : String := "element-move"

private def make (_ : Unit) (elementId : Text) (source target : SectionName)
    (deltaX deltaY : Float) : ElementMove :=
  ⟨elementId, source, target, deltaX, deltaY⟩

def ofMembers (members : List (String × Json)) : Checked ElementMove :=
  make <$> withDefault (.plain "kind") () (readLiteral tag) members
    <*> required (.plain "element_id") readText members
    <*> required (.plain "source_section") (readName SectionName.names) members
    <*> required (.plain "target_section") (readName SectionName.names) members
    <*> withDefault (.plain "delta_x") 0.0 readFloat members
    <*> withDefault (.plain "delta_y") 0.0 readFloat members

def read (origin : Origin) : Json → Checked ElementMove :=
  readRecord origin "ElementMove" ofMembers

def toJson (m : ElementMove) : Json :=
  .obj [("kind", .str tag), ("element_id", .str m.elementId),
    ("source_section", .str m.source.name), ("target_section", .str m.target.name),
    ("delta_x", .float m.deltaX), ("delta_y", .float m.deltaY)]

end ElementMove

namespace DragEvent

/-- An event by its tag. The issues of the event itself are seen through the tag. -/
def read : Json → Checked DragEvent
  | .obj members =>
    match Json.member? "kind" members with
    | none => .fault (.tagMissing "kind")
    | some (.str kind) =>
      if kind = ToolDrop.tag then
        ((ToolDrop.ofMembers members).map drop).within (.key ToolDrop.tag)
      else if kind = ElementMove.tag then
        ((ElementMove.ofMembers members).map move).within (.key ElementMove.tag)
      else .fault (.tagUnknown "kind" kind.shown [ToolDrop.tag, ElementMove.tag])
    | some other => .fault (.tagUnknown "kind" other.literal [ToolDrop.tag, ElementMove.tag])
  | _ => .fault .withoutFields

def toJson : DragEvent → Json
  | drop d => d.toJson
  | move m => m.toJson

end DragEvent
end ThermalLabel
