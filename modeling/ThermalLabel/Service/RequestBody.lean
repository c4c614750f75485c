import ThermalLabel.Label.DragEvent
import ThermalLabel.SampleData
/-!
# Request bodies

What the clients of the service send: a label with options, a single element, or an edit of a label.
Their own members have one spelling each; labels and elements inside them have two.
-/

namespace ThermalLabel.Service

open Schema

/-- The body rows of a label for which none are asked for. -/
def defaultRows : Int := 3

def readRows : Json → Checked Int := readIntFrom 1

structure CompileOptions where
  /-- Body rows of a sample label. -/
  rows : Int
  useSampleData : Bool
deriving DecidableEq

def modeOf (useSampleData : Bool) : Mode := if useSampleData then .sample else .template

namespace CompileOptions

def ofMembers (members : List (String × Json)) : Checked CompileOptions :=
  CompileOptions.mk <$> withDefault (.plain "mock_items") defaultRows readRows members
    <*> withDefault (.plain "use_mock_data") false readBool members

def read (origin : Origin) : Json → Checked CompileOptions :=
  readRecord origin "CompileOptions" ofMembers

def toJson (o : CompileOptions) : Json :=
  .obj [("mock_items", .int o.rows), ("use_mock_data", .bool o.useSampleData)]

def mode (o : CompileOptions) : Mode := modeOf o.useSampleData

end CompileOptions

structure CompileRequest where
  label : Label
  options : Option CompileOptions
deriving DecidableEq

namespace CompileRequest

def ofMembers (origin : Origin) (members : List (String × Json)) : Checked CompileRequest :=
  CompileRequest.mk <$> required (.plain "label") (Label.read origin) members
    <*> withDefault (.plain "options") none (readOptional (CompileOptions.read origin)) members

def read (origin : Origin) : Json → Checked CompileRequest :=
  readRecord origin "CompileRequest" (ofMembers origin)

def toJson (r : CompileRequest) : Json :=
  .obj [("label", r.label.toJson .joined),
    ("options", .ofOption CompileOptions.toJson r.options)]

end CompileRequest

/-- An element to be compiled on its own. -/
structure ElementRequest where
  element : Element
  useSampleData : Bool
  /-- How far the section of the element lies below the top, in millimetres. -/
  offset : Float
deriving DecidableEq

namespace ElementRequest

def ofMembers (origin : Origin) (members : List (String × Json)) : Checked ElementRequest :=
  ElementRequest.mk <$> required (.plain "element") (Element.read origin) members
    <*> withDefault (.plain "use_mock_data") false readBool members
    <*> withDefault (.plain "offset_mm") 0.0 readFloat members

def read (origin : Origin) : Json → Checked ElementRequest :=
  readRecord origin "ElementCompileRequest" (ofMembers origin)

def toJson (r : ElementRequest) : Json :=
  .obj [("element", r.element.toJson .joined), ("use_mock_data", .bool r.useSampleData),
    ("offset_mm", .float r.offset)]

end ElementRequest

structure PreviewRequest where
  label : Label
  rows : Int
deriving DecidableEq

namespace PreviewRequest

def ofMembers (origin : Origin) (members : List (String × Json)) : Checked PreviewRequest :=
  PreviewRequest.mk <$> required (.plain "label") (Label.read origin) members
    <*> withDefault (.plain "mock_items") defaultRows readRows members

def read (origin : Origin) : Json → Checked PreviewRequest :=
  readRecord origin "PreviewRequest" (ofMembers origin)

def toJson (r : PreviewRequest) : Json :=
  .obj [("label", r.label.toJson .joined), ("mock_items", .int r.rows)]

end PreviewRequest

/-- An element to be added to a section of a label. -/
structure AddElementRequest where
  label : Label
  place : SectionName
  element : Element
deriving DecidableEq

namespace AddElementRequest

def ofMembers (origin : Origin) (members : List (String × Json)) : Checked AddElementRequest :=
  AddElementRequest.mk <$> required (.plain "label") (Label.read origin) members
    <*> required (.plain "section") (readName SectionName.names) members
    <*> required (.plain "element") (Element.read origin) members

def read (origin : Origin) : Json → Checked AddElementRequest :=
  readRecord origin "AddElementRequest" (ofMembers origin)

def toJson (r : AddElementRequest) : Json :=
  .obj [("label", r.label.toJson .joined), ("section", .str r.place.name),
    ("element", r.element.toJson .joined)]

end AddElementRequest

/-- A drag on a label, shown at a zoom. -/
structure DragRequest where
  label : Label
  event : DragEvent
  zoom : Float
deriving DecidableEq

namespace DragRequest

def ofMembers (origin : Origin) (members : List (String × Json)) : Checked DragRequest :=
  DragRequest.mk <$> required (.plain "label") (Label.read origin) members
    <*> required (.plain "event") DragEvent.read members
    <*> withDefault (.plain "zoom") 1.25 readFloat members

def read (origin : Origin) : Json → Checked DragRequest :=
  readRecord origin "DragRequest" (ofMembers origin)

def toJson (r : DragRequest) : Json :=
  .obj [("label", r.label.toJson .joined), ("event", r.event.toJson), ("zoom", .float r.zoom)]

end DragRequest
end ThermalLabel.Service
