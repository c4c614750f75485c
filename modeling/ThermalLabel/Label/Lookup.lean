import ThermalLabel.Label.Basic
/-!
# Elements by id

Finding elements of a label by their id, and placing, replacing and removing them. Where an id
occurs more than once the first element is found, and all of them are replaced or removed.
-/

namespace ThermalLabel

namespace LabelSection

def find? (s : LabelSection) (id : Text) : Option Element :=
  s.elements.find? fun e => e.id == id

/-- An element placed above all others. -/
def push (s : LabelSection) (e : Element) : LabelSection :=
  { s with elements := s.elements ++ [e] }

/-- A section without the elements of an id. -/
def without (s : LabelSection) (id : Text) : LabelSection :=
  { s with elements := s.elements.filter fun e => e.id != id }

/-- A section with an element in the place of those of an id. -/
def replace (s : LabelSection) (id : Text) (new : Element) : LabelSection :=
  { s with elements := s.elements.map fun e => if e.id == id then new else e }

theorem id_of_find? {s : LabelSection} {id : Text} {e : Element} (h : s.find? id = some e) :
    e.id = id := by
  simpa using List.find?_some h

theorem mem_of_find? {s : LabelSection} {id : Text} {e : Element} (h : s.find? id = some e) :
    e ∈ s.elements :=
  List.mem_of_find?_eq_some h

end LabelSection

namespace Label

def modifyPart (label : Label) (name : SectionName) (f : LabelSection → LabelSection) : Label :=
  label.setPart name (f (label.part name))

@[simp] theorem part_modifyPart (label : Label) (n m : SectionName)
    (f : LabelSection → LabelSection) :
    (label.modifyPart n f).part m = if m = n then f (label.part n) else label.part m := by
  simp [modifyPart]

theorem modifyPart_modifyPart {label : Label} {name : SectionName}
    {f g : LabelSection → LabelSection} :
    (label.modifyPart name f).modifyPart name g = label.modifyPart name (g ∘ f) := by
  cases name <;> rfl

theorem modifyPart_eq_self {label : Label} {name : SectionName} {f : LabelSection → LabelSection}
    (h : f (label.part name) = label.part name) : label.modifyPart name f = label := by
  rw [modifyPart, h, setPart_part]

/-- The first element of an id, with the topmost section that has one. -/
def find? (label : Label) (id : Text) : Option (SectionName × Element) :=
  SectionName.all.findSome? fun name => ((label.part name).find? id).map fun e => (name, e)

def hasId (label : Label) (id : Text) : Bool := (label.find? id).isSome

end Label
end ThermalLabel
