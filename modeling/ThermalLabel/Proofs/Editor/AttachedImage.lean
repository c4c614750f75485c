import ThermalLabel.Proofs.Editor.Selection
import ThermalLabel.Proofs.Editor.SelectionHolds
import ThermalLabel.Proofs.Label.Elements
import ThermalLabel.Proofs.Label.RoundTrip
import ThermalLabel.Proofs.Number.Finite
/-!
# Attaching an encoded image

An encoded image is attached to any element, whatever picture the element had before. The element
takes the size of the image and gives up the name of a picture, and keeps everything else.
-/

namespace ThermalLabel

open Schema

theorem ofInteger_of_isFinite {n : Int} (h : (Float.ofInt n).isFinite = true) :
    ofInteger n = .ok (Float.ofInt n) := by
  rw [ofInteger, if_pos ((isFinite_ofFloat _).trans h)]

theorem Schema.readFloat_int {n : Int} (h : n.natAbs < 2 ^ 256) :
    readFloat (.int n) = .ok (Float.ofInt n) := by
  simp only [Json.int, readFloat, ofInteger_of_isFinite (isFinite_ofInt h)]

theorem Schema.eq_ofInt_of_readFloat {n : Int} {x : Float} (h : readFloat (.int n) = .ok x) :
    x = Float.ofInt n := by
  simp only [Json.int, readFloat, ofInteger] at h
  split at h
  · rename_i y hy
    split at hy
    · cases h
      cases hy
      rfl
    · cases hy
  · cases h

theorem Schema.eq_ofInt_of_readOptional {n : Int} {o : Option Float}
    (h : readOptional readFloat (.int n) = .ok o) : o = some (Float.ofInt n) := by
  obtain ⟨x, hx, rfl⟩ := Checked.map_eq_ok_iff.1 h
  rw [eq_ofInt_of_readFloat hx]

/-- An element with an encoded image in the place of whatever picture it had. -/
def Element.withImage (e : Element) (image : ImageEncoding) (bitmap : Bitmap) : Element :=
  { e with
    width := some (Float.ofInt image.width)
    height := some (Float.ofInt image.height)
    imageKey := none
    bitmap := some bitmap
    imageData := some image.preview }

namespace ImageEncoding

/-- The digits and sizes of a bitmap are those of an encoded image. -/
structure Holds (image : ImageEncoding) (bitmap : Bitmap) : Prop where
  payload : image.payload = bitmap.payload
  totalBytes : image.totalBytes = bitmap.totalBytes
  bytesPerRow : image.bytesPerRow = bitmap.bytesPerRow

theorem toBitmap_eq_ok_iff {image : ImageEncoding} {bitmap : Bitmap} :
    image.toBitmap = .ok bitmap ↔ image.Holds bitmap := by
  rw [toBitmap, Bitmap.ofMembers_eq_ok_iff]
  constructor
  · rintro ⟨hpayload, htotalBytes, hbytesPerRow⟩
    rw [required_eq_ok_iff rfl] at hpayload htotalBytes hbytesPerRow
    exact ⟨Checked.ok.inj hpayload, readNat_int_eq_ok_iff.1 htotalBytes,
      readNat_int_eq_ok_iff.1 hbytesPerRow⟩
  · rintro ⟨hpayload, htotalBytes, hbytesPerRow⟩
    rw [hpayload, htotalBytes, hbytesPerRow]
    exact ⟨required_of_find? rfl rfl, required_of_find? rfl (readNat_int bitmap.totalBytes),
      required_of_find? rfl (readNat_int bitmap.bytesPerRow)⟩

end ImageEncoding

namespace Editor

variable {image : ImageEncoding} {bitmap : Bitmap}

/-- Whatever an element held, it is changed to one with the image. -/
theorem changed_imageChanges (e : Element) (hwidth : image.width.natAbs < 2 ^ 256)
    (hheight : image.height.natAbs < 2 ^ 256) :
    changed e (imageChanges image bitmap) = .ok (e.withImage image bitmap) := by
  have hint : ∀ n, Json.int n ≠ .null := fun _ => Json.noConfusion
  have hbitmap := Bitmap.read_toJson .value .underscored bitmap
  -- What the image does not name is read from where the element wrote it.
  obtain ⟨hid, hkind, hx, hy, -, -, hcontent, hisDynamic, hdataSource, -, hfontSize, hfontBold,
    hrotation, hmaxChars, hbarcodeKind, hshowLabel, -, -⟩ :=
    Element.fieldsOf_eq_ok_iff.1 (Element.fieldsOf_toMembers .value .underscored e)
  refine Element.ofMembers_eq_ok_iff.2 ⟨Element.fieldsOf_eq_ok_iff.2 ?_, rfl⟩
  exact ⟨hid, hkind, hx, hy,
    withDefault_of_find? rfl (readOptional_of_ne_null (hint _) (readFloat_int hwidth)),
    withDefault_of_find? rfl (readOptional_of_ne_null (hint _) (readFloat_int hheight)),
    hcontent, hisDynamic, hdataSource, withDefault_of_find? rfl rfl, hfontSize, hfontBold,
    hrotation, hmaxChars, hbarcodeKind, hshowLabel,
    withDefault_of_find? rfl (readOptional_of_ne_null Json.noConfusion hbitmap),
    withDefault_of_find? rfl rfl⟩

theorem takenId?_imageChanges (label : Label) (e : Element) :
    takenId? label e (imageChanges image bitmap) = none := by
  have hid : Json.member? "id" (changedMembers e (imageChanges image bitmap)) = some (.str e.id) :=
    rfl
  simp [takenId?, hid]

/-- The element of a section that is found by the id of one of its elements has the image, both for
the client and on the label. -/
theorem Session.step_setImage (s : Session) {name : SectionName} {e : Element}
    (hmem : e ∈ (s.label.part name).elements) (hwidth : image.width.natAbs < 2 ^ 256)
    (hheight : image.height.natAbs < 2 ^ 256) (hbitmap : image.toBitmap = .ok bitmap) :
    ∃ old next, (s.label.part name).find? e.id = some old ∧
      s.step (.edit (.setImage (.ok name) (.id e.id) image)) =
        (next, .ok (.element (old.withImage image bitmap))) ∧
      (next.label.part name).find? e.id = some (old.withImage image bitmap) := by
  obtain ⟨old, hold⟩ : ∃ old, (s.label.part name).find? e.id = some old := by
    apply Option.isSome_iff_exists.1
    exact List.find?_isSome.2 ⟨e, hmem, BEq.rfl⟩
  have hid : old.id = e.id := LabelSection.id_of_find? hold
  let r : Edited := ⟨.updateElement,
    s.label.modifyPart name (·.replace old.id (old.withImage image bitmap)),
    some (old.withImage image bitmap)⟩
  have happly : (Edit.setImage (.ok name) (.id e.id) image).apply s.zoom s.label = .ok r := by
    rw [Edit.apply, hbitmap]
    exact updateElement_eq_ok_iff.2 ⟨name, old, _, rfl, congrArg _ hid.symm, hid ▸ hold,
      takenId?_imageChanges s.label old, changed_imageChanges old hwidth hheight, rfl⟩
  refine ⟨old, s.accept _ r, hold, step_accepted happly, ?_⟩
  rw [ignoresSelection_label.accept]
  change ((s.label.modifyPart name _).part name).find? e.id = _
  rw [Label.part_modifyPart, if_pos rfl, hid]
  exact LabelSection.find?_replace hold hid

end Editor
end ThermalLabel
