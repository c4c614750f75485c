import Mathlib
import ThermalLabel.Label.Lookup
import ThermalLabel.Proofs.Fallible
import ThermalLabel.Proofs.Number.WholeNumbers
import ThermalLabel.Zpl.Document
/-!
# What a printer document consists of

A document is its size, then each section at each of its places, and nothing else. At a place each
element of a section leaves its own text, or nothing where it cannot be compiled. Whether there is
a document depends on the size alone: an element that fails at a place leaves out its own text there
and no other.
-/

namespace ThermalLabel.Zpl

variable (data : SampleData) (mode : Mode) (label : Label) (rows : Int)

def heightWith : Float :=
  label.header.height + label.body.height * Float.ofInt rows + label.footer.height

/-- How far below the top a body row starts, or what follows the last one. -/
def rowTop (index : Int) : Float := label.header.height + Float.ofInt index * label.body.height

/-- The record of a body row: the rows of the table in turn, none without a table. -/
def recordInTurn (index : Nat) : Option DataRecord :=
  match mode with
  | .template => none
  | .sample => data.rows[index % data.rows.length]?

/-- The places at which a section is printed, from first to last. -/
def placesOf : SectionName → List Place
  | .header => [⟨0.0, none⟩]
  | .body => (List.range rows.toNat).map fun i : Nat => ⟨rowTop label i, recordInTurn data mode i⟩
  | .footer => [⟨rowTop label rows, none⟩]

def printedSection (name : SectionName) : Text :=
  Text.join ((placesOf data mode label rows name).map fun place =>
    sectionText data mode (label.part name).elements place)

/-- A document of a size in dots. -/
def layout (height width : Int) : Text :=
  "^XA\n^CI28\n" ++ "^LL" ++ toString height ++ "\n" ++ "^PW" ++ toString width ++ "\n" ++
    printedSection data mode label rows .header ++ printedSection data mode label rows .body ++
    printedSection data mode label rows .footer ++ "^XZ"

theorem recordOf_eq (index : Nat) : data.recordOf mode index = recordInTurn data mode index := by
  cases mode with
  | template => rfl
  | sample =>
    have hmod : ((index : Int) % (data.rows.length : Int)).toNat = index % data.rows.length := by
      rw [← Int.natCast_emod, Int.toNat_natCast]
    simp only [SampleData.recordOf, SampleData.row?, recordInTurn, hmod]

variable {data mode} in
theorem sectionText_skip {place : Place} {before after : List Element} {e : Element}
    (h : fragment data mode e place = "") :
    sectionText data mode (before ++ e :: after) place =
      sectionText data mode (before ++ after) place := by
  simp only [sectionText, List.map_append, List.map_cons, Text.join_append, Text.join_cons, h,
    Text.empty_append]

variable {label rows}

theorem totalHeight_eq (h : rows.natAbs < 2 ^ 53) :
    totalHeight label rows = .ok (heightWith label rows) := by
  rw [totalHeight, ofInteger_eq_ok h]
  rfl

theorem rowOffset_eq (h : rows.natAbs < 2 ^ 53) :
    rowOffset label rows = .ok (rowTop label rows) := by
  rw [rowOffset, ofInteger_eq_ok h]
  rfl

theorem bodyText_eq (h : rows.natAbs < 2 ^ 53) :
    (List.range rows.toNat).mapM (rowText data mode label) =
      .ok ((placesOf data mode label rows .body).map fun place =>
        sectionText data mode label.body.elements place) := by
  simp only [placesOf, List.map_map]
  apply mapM_eq_ok_map
  intro i hi
  have hrow : i < rows.toNat := List.mem_range.1 hi
  have hbound : (i : Int).natAbs < 2 ^ 53 := by omega
  rw [rowText, rowOffset_eq hbound, recordOf_eq]
  rfl

private theorem printedSection_header :
    printedSection data mode label rows .header =
      sectionText data mode label.header.elements ⟨0.0, none⟩ := by
  simp only [printedSection, placesOf, List.map_cons, List.map_nil, Text.join_cons,
    Text.join_nil, Text.append_empty]
  rfl

private theorem printedSection_body :
    printedSection data mode label rows .body =
      Text.join ((placesOf data mode label rows .body).map fun place =>
        sectionText data mode label.body.elements place) := rfl

private theorem printedSection_footer :
    printedSection data mode label rows .footer =
      sectionText data mode label.footer.elements ⟨rowTop label rows, none⟩ := by
  simp only [printedSection, placesOf, List.map_cons, List.map_nil, Text.join_cons,
    Text.join_nil, Text.append_empty]
  rfl

theorem natAbs_bodyRows_lt {requested : Int} (h : requested.natAbs < 2 ^ 53) :
    (mode.bodyRows requested).natAbs < 2 ^ 53 := by
  cases mode with
  | sample => exact h
  | template =>
    change (1 : Int).natAbs < 2 ^ 53
    decide

theorem documentText_eq {requested : Int} (h : requested.natAbs < 2 ^ 53) :
    documentText data mode label requested = do
      let height ← millimetersToDots (heightWith label (mode.bodyRows requested))
      let width ← millimetersToDots label.canvasWidth
      return layout data mode label (mode.bodyRows requested) height width := by
  have hrows := natAbs_bodyRows_lt mode h
  unfold documentText
  simp only [totalHeight_eq hrows, bodyText_eq data mode hrows, rowOffset_eq hrows]
  change (millimetersToDots (heightWith label (mode.bodyRows requested)) >>= _) = _
  refine bind_congr fun height => ?_
  refine bind_congr fun width => ?_
  unfold layout
  simp only [bind, Except.bind, pure, Except.pure, printedSection_header, printedSection_body,
    printedSection_footer]

/-- What an element leaves in a document at a place: its own text, or nothing where it cannot be
compiled. -/
inductive Leaves (e : Element) (place : Place) : Text → Prop where
  | own {text : Text} : elementText data mode e place = .ok text → Leaves e place text
  | nothing {err : NumberError} : elementText data mode e place = .error err → Leaves e place ""

/-- What elements leave at a place, one after the other. -/
def LeaveInOrder (elements : List Element) (place : Place) (text : Text) : Prop :=
  ∃ texts, List.Forall₂ (fun e t => Leaves data mode e place t) elements texts ∧
    text = Text.join texts

/-- What a section leaves in a document, from its first place to its last. -/
def SectionLeaves (label : Label) (rows : Int) (name : SectionName) (text : Text) : Prop :=
  ∃ texts, List.Forall₂ (LeaveInOrder data mode (label.part name).elements)
    (placesOf data mode label rows name) texts ∧ text = Text.join texts

/-- A document of a size in dots: the size, and what each section leaves. -/
def LaidOut (label : Label) (rows height width : Int) (document : Text) : Prop :=
  ∃ header body footer, SectionLeaves data mode label rows .header header ∧
    SectionLeaves data mode label rows .body body ∧
    SectionLeaves data mode label rows .footer footer ∧
    document = "^XA\n^CI28\n" ++ "^LL" ++ toString height ++ "\n" ++ "^PW" ++ toString width ++
      "\n" ++ header ++ body ++ footer ++ "^XZ"

def farBox : Element where
  id := "far"
  kind := .box
  x := 1.0 / 0.0
  y := 0.0
  width := none
  height := none
  content := none
  isDynamic := false
  dataSource := none
  imageKey := none
  fontSize := none
  fontBold := none
  rotation := none
  maxChars := none
  barcodeKind := none
  showLabel := none
  bitmap := none
  imageData := none

end ThermalLabel.Zpl
