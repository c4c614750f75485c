import ThermalLabel.LinePrint.Label
import ThermalLabel.Proofs.Fallible
import ThermalLabel.Zpl.Document
/-!
# Printed labels part by part

Both forms of a printed label have the same parts: what stands in front of the sections, then the
header, the body row by row, and the footer. They differ in how a part comes about and in what is
written between the parts.
-/

namespace ThermalLabel

/-- What a label is printed as, in parts. -/
structure Printed where
  /-- What says how large the label is. -/
  opening : Text
  header : Text
  rows : List Text
  footer : Text

variable (data : SampleData) (mode : Mode) (label : Label) (requested : Int)

namespace Zpl

def printed : Except NumberError Printed := do
  let rows := mode.bodyRows requested
  let height ← totalHeight label rows
  let heightDots ← millimetersToDots height
  let widthDots ← millimetersToDots label.canvasWidth
  let body ← (List.range rows.toNat).mapM (rowText data mode label)
  let footerOffset ← rowOffset label rows
  return {
    opening := "^XA\n^CI28\n" ++ "^LL" ++ toString heightDots ++ "\n" ++
      "^PW" ++ toString widthDots ++ "\n"
    header := sectionText data mode label.header.elements ⟨0.0, none⟩
    rows := body
    footer := sectionText data mode label.footer.elements ⟨footerOffset, none⟩ }

/-- The parts of a document in one text. -/
def joined (p : Printed) : Text := p.opening ++ p.header ++ Text.join p.rows ++ p.footer ++ "^XZ"

theorem documentText_eq_printed :
    documentText data mode label requested = (printed data mode label requested).map joined := by
  simp only [documentText, printed, map_bind_eq]
  rfl

variable {data mode label requested} in
theorem rows_of_printed {p : Printed}
    (h : printed data mode label requested = .ok p) :
    (List.range (mode.bodyRows requested).toNat).mapM (rowText data mode label) = .ok p.rows := by
  simp only [printed, bind_eq_ok_iff] at h
  obtain ⟨_, -, _, -, _, -, rows, hrows, _, -, hp⟩ := h
  cases hp
  exact hrows

end Zpl

namespace LinePrint

def printed : Except NumberError Printed := do
  let columns ← floorOf (label.canvasWidth * columnsPerMillimeter)
  let header ← sectionText data mode label.header.elements none
  let body ← (List.range (mode.bodyRows requested).toNat).mapM (rowText data mode label.body.elements)
  let footer ← sectionText data mode label.footer.elements none
  return {
    opening := "=== LINE PRINT MODE (FIXED WIDTH PREVIEW) ===\n" ++
      "Paper Width: " ++ generalText label.canvasWidth ++ "mm (Approx " ++ toString columns ++
      " chars)\n\n"
    header, rows := body, footer }

/-- The parts of a label in characters in one text, each section under its title. -/
def joined (p : Printed) : Text :=
  p.opening ++ "--- HEADER ---\n" ++ p.header ++ "\n--- BODY ---\n" ++ Text.join p.rows ++
    "\n--- FOOTER ---\n" ++ p.footer ++ "\n"

theorem labelText_eq_printed :
    labelText data mode label requested = (printed data mode label requested).map joined := by
  simp only [labelText, printed, map_bind_eq]
  rfl

variable {data mode label requested} in
theorem rows_of_printed {p : Printed}
    (h : printed data mode label requested = .ok p) :
    (List.range (mode.bodyRows requested).toNat).mapM (rowText data mode label.body.elements) =
      .ok p.rows := by
  simp only [printed, bind_eq_ok_iff] at h
  obtain ⟨_, -, _, -, rows, hrows, _, -, hp⟩ := h
  cases hp
  exact hrows

end LinePrint
end ThermalLabel
