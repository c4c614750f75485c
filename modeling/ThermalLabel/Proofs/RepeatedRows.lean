import Mathlib
import ThermalLabel.Editor.Edit
import ThermalLabel.Proofs.Printed
import ThermalLabel.Proofs.Zpl.Compiled
/-!
# Repeated body rows

On a sample label the records come in turn, so that a body row looks like the one that many rows
above it. In a document for the printer it is the same block of commands, moved down as a whole; in
characters it is the same text.
-/

namespace ThermalLabel

theorem SampleData.recordOf_add_length (data : SampleData) (i : Int) :
    data.recordOf .sample (i + data.rows.length) = data.recordOf .sample i := by
  simp only [recordOf, row?, Int.add_emod_right]

namespace Zpl

/-- A command at another height on the label: only origins say where they are. -/
def Command.moved (dots : Int) : Command → Command
  | fieldOrigin x y => fieldOrigin x (y + dots)
  | other => other

variable {data : SampleData} {mode : Mode} {label : Label} {dots top top' : Int}
  {offset offset' : Float} {row : Option DataRecord}

theorem imageCommands_add (e : Element) (x y dots : Int) :
    imageCommands e x (y + dots) = (imageCommands e x y).map (List.map (Command.moved dots)) := by
  unfold imageCommands
  cases printableBitmap? e with
  | some bitmap => rfl
  | none =>
    simp only [map_bind_eq]
    rfl

theorem barcodeCommands_moved (e : Element) (content : Text) (dots : Int) :
    (barcodeCommands e content).map (List.map (Command.moved dots)) =
      barcodeCommands e content := by
  unfold barcodeCommands
  split
  · simp only [map_bind_eq]
    rfl
  · simp only [map_bind_eq]
    rfl

theorem fieldCommands_add (e : Element) (x y dots : Int) :
    fieldCommands data mode e row x (y + dots) =
      (fieldCommands data mode e row x y).map (List.map (Command.moved dots)) := by
  unfold fieldCommands
  cases e.kind with
  | box =>
    simp only [boxCommands, map_bind_eq]
    rfl
  | barcode => exact (barcodeCommands_moved e _ dots).symm
  | image => exact imageCommands_add e x y dots
  | text =>
    simp only [textCommands, map_bind_eq]
    rfl

/-- An element of a section that starts elsewhere fails as before, or is moved as the section. -/
theorem elementCommands_moved (h : millimetersToDots offset = .ok top)
    (h' : millimetersToDots offset' = .ok top') (e : Element) :
    elementCommands data mode e ⟨offset', row⟩ =
      (elementCommands data mode e ⟨offset, row⟩).map (List.map (Command.moved (top' - top))) := by
  have hbelow (below : Int) : top' + below = top + below + (top' - top) := by ring
  unfold elementCommands
  rw [h, h', map_bind_eq]
  refine bind_congr fun x => ?_
  change (pixelsToDots e.y >>= _) = Except.map _ (pixelsToDots e.y >>= _)
  rw [map_bind_eq]
  refine bind_congr fun below => ?_
  rw [map_bind_eq, hbelow, fieldCommands_add, bind_map_eq]
  rfl

theorem sectionLines_moved (h : millimetersToDots offset = .ok top)
    (h' : millimetersToDots offset' = .ok top') (elements : List Element) :
    sectionLines data mode elements ⟨offset', row⟩ =
      (sectionLines data mode elements ⟨offset, row⟩).map
        (List.map (Command.moved (top' - top))) := by
  have hoption (x : Except NumberError (List Command)) (g : List Command → List Command) :
      (x.map g).toOption = x.toOption.map g := by
    cases x <;> rfl
  simp only [sectionLines, List.map_filterMap]
  refine List.filterMap_congr fun e _ => ?_
  rw [elementCommands_moved h h', hoption]

theorem rowLines_eq_ok_iff {i : Nat} {lines : List (List Command)} :
    rowLines data mode label i = .ok lines ↔ ∃ offset, rowOffset label i = .ok offset ∧
      lines = sectionLines data mode label.body.elements ⟨offset, data.recordOf mode i⟩ := by
  rw [rowLines, bind_eq_ok_iff]
  constructor
  · rintro ⟨offset, hoffset, hlines⟩
    exact ⟨offset, hoffset, (Except.ok.inj hlines).symm⟩
  · rintro ⟨offset, hoffset, hlines⟩
    exact ⟨offset, hoffset, congrArg Except.ok hlines.symm⟩

/-- The rows of a document are the lines of their elements. -/
theorem rows_of_document {requested : Int} {document : Text}
    (h : documentText data mode label requested = .ok document) :
    ∃ p, printed data mode label requested = .ok p ∧ document = joined p ∧
      ∀ i : Nat, (i : Int) < mode.bodyRows requested →
        ∃ lines, rowLines data mode label i = .ok lines ∧
          p.rows[i]? = some (writtenLines lines) := by
  rw [documentText_eq_printed] at h
  cases hp : printed data mode label requested with
  | error err =>
    rw [hp] at h
    cases h
  | ok p =>
    rw [hp] at h
    cases h
    refine ⟨p, rfl, rfl, fun i hi => ?_⟩
    have hbody := rows_of_printed hp
    rw [rowText_eq_lines, mapM_map] at hbody
    obtain ⟨blocks, hblocks⟩ := exists_map_eq_ok_iff.1 ⟨p.rows, hbody⟩
    rw [hblocks] at hbody
    have hrows : blocks.map writtenLines = p.rows := Except.ok.inj hbody
    have hitem := map_ok_getElem?_of_mapM hblocks i
    have hlt : i < (mode.bodyRows requested).toNat := by omega
    rw [List.getElem?_range hlt, Option.map_some, Option.map_eq_some_iff] at hitem
    obtain ⟨lines, hlines, hrow⟩ := hitem
    refine ⟨lines, hrow.symm, ?_⟩
    rw [← hrows, List.getElem?_map, hlines]
    rfl

end Zpl

namespace LinePrint

variable {data : SampleData} {label : Label} {requested : Int}

/-- The body of a sample label in characters, for a number of rows. -/
def bodyText (data : SampleData) (elements : List Element) (n : Nat) : Except NumberError Text :=
  ((List.range n).mapM (rowText data .sample elements)).map Text.join

theorem bodyText_of_printed {p : Printed} (h : printed data .sample label requested = .ok p) :
    bodyText data label.body.elements requested.toNat = .ok (Text.join p.rows) := by
  have hrows := rows_of_printed h
  change (List.range requested.toNat).mapM _ = _ at hrows
  rw [bodyText, hrows]
  rfl

theorem rowText_add_length (elements : List Element) (i : Nat) :
    rowText data .sample elements (i + data.rows.length) = rowText data .sample elements i := by
  rw [rowText, rowText, Nat.cast_add, SampleData.recordOf_add_length]

theorem bodyText_add_length (elements : List Element) (n : Nat) :
    bodyText data elements (n + data.rows.length) = do
      let first ← bodyText data elements data.rows.length
      let rest ← bodyText data elements n
      return first ++ rest := by
  have hagain : ((List.range n).map (data.rows.length + ·)).mapM (rowText data .sample elements) =
      (List.range n).mapM (rowText data .sample elements) := by
    rw [List.mapM_map]
    refine mapM_congr fun i _ => ?_
    rw [Function.comp_apply, Nat.add_comm, rowText_add_length]
  unfold bodyText
  rw [Nat.add_comm, List.range_add, List.mapM_append, hagain]
  cases (List.range data.rows.length).mapM (rowText data .sample elements) with
  | error err => rfl
  | ok first =>
    cases (List.range n).mapM (rowText data .sample elements) with
    | error err => rfl
    | ok rest => exact congrArg Except.ok Text.join_append

end LinePrint

open Zpl in
/-- Two body rows that are as many rows apart as there are records. In a document the lower one is
the upper one moved by the distance of their places in dots, element by element, with the same
elements left out. In characters they are the same text, and the body for more rows starts with the
one for as many rows as there are records. -/
theorem body_rows_repeat (data : SampleData) (label : Label) (i : Nat) :
    (∀ requested document, documentText data .sample label requested = .ok document →
      ((i + data.rows.length : Nat) : Int) < requested →
      ∃ p offset offset' lines, printed data .sample label requested = .ok p ∧
        document = joined p ∧ rowOffset label i = .ok offset ∧
        rowOffset label (i + data.rows.length : Nat) = .ok offset' ∧
        rowLines data .sample label i = .ok lines ∧ p.rows[i]? = some (writtenLines lines) ∧
        ∀ top top', millimetersToDots offset = .ok top → millimetersToDots offset' = .ok top' →
          (∀ e, elementCommands data .sample e
              ⟨offset', data.recordOf .sample (i + data.rows.length : Nat)⟩ =
            (elementCommands data .sample e ⟨offset, data.recordOf .sample i⟩).map
              (List.map (Command.moved (top' - top)))) ∧
          p.rows[i + data.rows.length]? =
            some (writtenLines (lines.map (List.map (Command.moved (top' - top)))))) ∧
    (∀ elements, LinePrint.rowText data .sample elements (i + data.rows.length) =
      LinePrint.rowText data .sample elements i) ∧
    (∀ elements n, LinePrint.bodyText data elements (n + data.rows.length) = do
      let first ← LinePrint.bodyText data elements data.rows.length
      let rest ← LinePrint.bodyText data elements n
      return first ++ rest) ∧
    ∀ requested p, LinePrint.printed data .sample label requested = .ok p →
      LinePrint.bodyText data label.body.elements requested.toNat = .ok (Text.join p.rows) := by
  refine ⟨?_, fun elements => LinePrint.rowText_add_length elements i,
    LinePrint.bodyText_add_length, fun _ _ => LinePrint.bodyText_of_printed⟩
  intro requested document hdocument hlower
  have hrecord : data.recordOf .sample ((i + data.rows.length : Nat) : Int) =
      data.recordOf .sample i := by
    rw [Nat.cast_add, data.recordOf_add_length]
  obtain ⟨p, hp, hjoined, hrows⟩ := rows_of_document hdocument
  have hupper : (i : Int) < Mode.sample.bodyRows requested := by
    change (i : Int) < requested
    omega
  obtain ⟨lines, hlines, hrow⟩ := hrows i hupper
  obtain ⟨lines', hlines', hrow'⟩ := hrows (i + data.rows.length) hlower
  obtain ⟨offset, hoffset, hsection⟩ := rowLines_eq_ok_iff.1 hlines
  obtain ⟨offset', hoffset', hsection'⟩ := rowLines_eq_ok_iff.1 hlines'
  refine ⟨p, offset, offset', lines, hp, hjoined, hoffset, hoffset', hlines, hrow, ?_⟩
  intro top top' htop htop'
  rw [hrecord] at hsection' ⊢
  refine ⟨elementCommands_moved htop htop', ?_⟩
  rw [hrow', hsection', hsection, sectionLines_moved htop htop']

/-- A label whose body has a product code, a picture that is only outlined, and a box without a
place. -/
def priceList : Label :=
  ⟨⟨40.0, []⟩, ⟨10.07, [
    { Editor.droppedElement "code" .text with
      isDynamic := true
      dataSource := some "Line.ProductCode" },
    { Editor.droppedElement "logo" .image with imageKey := some "Logo" },
    { Editor.droppedElement "far" .box with x := 1.0 / 0.0 }]⟩, ⟨20.0, []⟩, 104.0⟩

open Zpl in
theorem priceList_rows_repeat :
    ∃ p lines, printed .standard .sample priceList 5 = .ok p ∧
      rowLines .standard .sample priceList 1 = .ok lines ∧ lines.length = 2 ∧
      p.rows[1]? = some (writtenLines lines) ∧
      p.rows[4]? = some (writtenLines (lines.map (List.map (Command.moved 241)))) := by
  obtain ⟨document, hdocument⟩ : ∃ document,
      documentText .standard .sample priceList 5 = .ok document :=
    exists_eq_ok (by decide +kernel)
  obtain ⟨p, offset, offset', lines, hp, -, hoffset, hoffset', hlines, hrow, hmoved⟩ :=
    (body_rows_repeat .standard priceList 1).1 5 document hdocument (by decide)
  have hupper : rowOffset priceList 1 = .ok offset := hoffset
  have hlower : rowOffset priceList 4 = .ok offset' := hoffset'
  have htop : (rowOffset priceList 1 >>= millimetersToDots) = .ok 401 := by decide +kernel
  have htop' : (rowOffset priceList 4 >>= millimetersToDots) = .ok 642 := by decide +kernel
  have hlength : (rowLines .standard .sample priceList 1).map List.length = .ok 2 := by
    decide +kernel
  rw [hupper] at htop
  rw [hlower] at htop'
  rw [hlines] at hlength
  exact ⟨p, lines, hp, hlines, Except.ok.inj hlength, hrow, (hmoved 401 642 htop htop').2⟩

end ThermalLabel
