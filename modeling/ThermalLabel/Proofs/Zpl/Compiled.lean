import ThermalLabel.Proofs.Fallible
import ThermalLabel.Zpl.Document
/-!
# Documents as commands

A document is nothing but commands written down: those that state its size, between a start and an
end, and one line of commands for each element that could be compiled.
-/

namespace ThermalLabel.Zpl

/-- What a label is compiled to: its size in dots, and its elements line by line. -/
structure Compiled where
  height : Int
  width : Int
  lines : List (List Command)

def writtenLines (lines : List (List Command)) : Text := Text.join (lines.map writtenLine)

def Compiled.commands (d : Compiled) : List Command := d.lines.flatten

def Compiled.written (d : Compiled) : Text :=
  "^XA\n^CI28\n" ++ "^LL" ++ toString d.height ++ "\n" ++ "^PW" ++ toString d.width ++ "\n" ++
    writtenLines d.lines ++ "^XZ"

variable (data : SampleData) (mode : Mode) (label : Label) (requested : Int)

/-- The lines of those elements that can be compiled. -/
def sectionLines (elements : List Element) (place : Place) : List (List Command) :=
  elements.filterMap fun e => (elementCommands data mode e place).toOption

def rowLines (index : Nat) : Except NumberError (List (List Command)) := do
  let offset ← rowOffset label index
  return sectionLines data mode label.body.elements ⟨offset, data.recordOf mode index⟩

def compiled : Except NumberError Compiled := do
  let rows := mode.bodyRows requested
  let height ← totalHeight label rows
  let heightDots ← millimetersToDots height
  let widthDots ← millimetersToDots label.canvasWidth
  let body ← (List.range rows.toNat).mapM (rowLines data mode label)
  let footerOffset ← rowOffset label rows
  return {
    height := heightDots
    width := widthDots
    lines := sectionLines data mode label.header.elements ⟨0.0, none⟩ ++ body.flatten ++
      sectionLines data mode label.footer.elements ⟨footerOffset, none⟩ }

variable {data mode} in
theorem exists_of_elementCommands {e : Element} {place : Place} {commands : List Command}
    (h : elementCommands data mode e place = .ok commands) :
    ∃ x y field, fieldCommands data mode e place.row x y = .ok field ∧
      commands = .fieldOrigin x y :: field := by
  simp only [elementCommands, bind_eq_ok_iff] at h
  obtain ⟨x, -, top, -, below, -, field, hfield, hcommands⟩ := h
  cases hcommands
  exact ⟨x, top + below, field, hfield, rfl⟩

theorem writtenLines_append (lines more : List (List Command)) :
    writtenLines (lines ++ more) = writtenLines lines ++ writtenLines more := by
  simp only [writtenLines, List.map_append, Text.join_append]

theorem writtenLines_flatten (blocks : List (List (List Command))) :
    writtenLines blocks.flatten = Text.join (blocks.map writtenLines) := by
  induction blocks with
  | nil => rfl
  | cons block blocks ih =>
    rw [List.flatten_cons, writtenLines_append, ih, List.map_cons, Text.join_cons]

theorem sectionText_eq_lines (elements : List Element) (place : Place) :
    sectionText data mode elements place =
      writtenLines (sectionLines data mode elements place) := by
  induction elements with
  | nil => rfl
  | cons e elements ih =>
    simp only [sectionText, sectionLines, List.map_cons, Text.join_cons] at ih ⊢
    rw [ih, fragment, elementText]
    cases h : elementCommands data mode e place with
    | error err =>
      rw [List.filterMap_cons_none (by rw [h]; rfl)]
      exact Text.empty_append
    | ok commands =>
      rw [List.filterMap_cons_some (by rw [h]; rfl), writtenLines, writtenLines, List.map_cons,
        Text.join_cons]
      rfl

theorem rowText_eq_lines : rowText data mode label = fun i =>
    (rowLines data mode label i).map writtenLines := by
  funext i
  simp only [rowText, rowLines, map_bind_eq, sectionText_eq_lines]
  rfl

theorem documentText_eq_compiled :
    documentText data mode label requested =
      (compiled data mode label requested).map Compiled.written := by
  simp only [documentText, compiled, map_bind_eq, bind_map_eq, rowText_eq_lines, mapM_map,
    sectionText_eq_lines]
  refine bind_congr fun height => ?_
  refine bind_congr fun heightDots => ?_
  refine bind_congr fun widthDots => ?_
  refine bind_congr fun body => ?_
  refine bind_congr fun footerOffset => ?_
  apply congrArg Except.ok
  unfold Compiled.written
  rw [writtenLines_append, writtenLines_append, writtenLines_flatten]
  simp only [Text.append_assoc]

end ThermalLabel.Zpl
