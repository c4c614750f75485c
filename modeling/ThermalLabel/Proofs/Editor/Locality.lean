import ThermalLabel.Proofs.Editor.Accepted
import ThermalLabel.Proofs.Editor.AttachedImage
import ThermalLabel.Proofs.Editor.KeptFields
import ThermalLabel.Proofs.Editor.Selection
import ThermalLabel.Proofs.Label.Elements
/-!
# Edits change nothing but what they are about

Where ids are distinct, an edit of an element finds it between elements of other ids, which stay as
they are and in their order. Heights, the width and the other sections stay too, and of the element
itself what the edit does not name. What it names becomes what the edit says.
-/

namespace ThermalLabel

namespace Label

/-- The sizes of a label, and what the sections outside of `names` hold, are still the same. -/
structure SameOutside (names : List SectionName) (label next : Label) : Prop where
  heights : ∀ n, (next.part n).height = (label.part n).height
  canvasWidth : next.canvasWidth = label.canvasWidth
  elements : ∀ n, n ∉ names → (next.part n).elements = (label.part n).elements

variable {label next : Label} {name : SectionName} {e new : Element}

structure Appended (name : SectionName) (e : Element) (label next : Label) : Prop
    extends SameOutside [name] label next where
  last : (next.part name).elements = (label.part name).elements ++ [e]

/-- The element is gone from between those before and those after it. -/
structure Removed (name : SectionName) (e : Element) (label next : Label) : Prop
    extends SameOutside [name] label next where
  gone : ∃ before after, (label.part name).elements = before ++ e :: after ∧
    (next.part name).elements = before ++ after

/-- Between those before and those after the element there is another one now. -/
structure Replaced (name : SectionName) (e new : Element) (label next : Label) : Prop
    extends SameOutside [name] label next where
  inPlace : ∃ before after, (label.part name).elements = before ++ e :: after ∧
    (next.part name).elements = before ++ new :: after

/-- The element is gone from one section and, as `moved`, the last of another one. -/
structure Moved (source target : SectionName) (e moved : Element) (label next : Label) : Prop
    extends SameOutside [source, target] label next where
  gone : ∃ before after, (label.part source).elements = before ++ e :: after ∧
    (next.part source).elements = before ++ after
  last : (next.part target).elements = (label.part target).elements ++ [moved]
  ids : next.ids.Perm label.ids

theorem sameOutside_modifyPart {f : LabelSection → LabelSection}
    (hheight : (f (label.part name)).height = (label.part name).height) :
    SameOutside [name] label (label.modifyPart name f) := by
  refine ⟨?_, canvasWidth_setPart label name _, ?_⟩
  · intro n
    rw [part_modifyPart]
    by_cases hn : n = name
    · rw [if_pos hn, hn, hheight]
    · rw [if_neg hn]
  · intro n hn
    rw [part_modifyPart, if_neg (List.ne_of_not_mem_cons hn)]

theorem SameOutside.trans {names names' : List SectionName} {mid : Label}
    (h : SameOutside names label mid) (h' : SameOutside names' mid next) :
    SameOutside (names ++ names') label next := by
  refine ⟨fun n => (h'.heights n).trans (h.heights n), h'.canvasWidth.trans h.canvasWidth, ?_⟩
  intro n hn
  rw [List.mem_append, not_or] at hn
  exact (h'.elements n hn.2).trans (h.elements n hn.1)

theorem part_modifyPart_self (label : Label) (name : SectionName)
    (f : LabelSection → LabelSection) :
    (label.modifyPart name f).part name = f (label.part name) := by
  rw [part_modifyPart, if_pos rfl]

theorem appended_push (label : Label) (name : SectionName) (e : Element) :
    Appended name e label (label.modifyPart name (·.push e)) := by
  refine ⟨sameOutside_modifyPart rfl, ?_⟩
  rw [part_modifyPart_self]
  rfl

theorem DistinctIds.part (h : label.DistinctIds) (name : SectionName) :
    (label.part name).ids.Nodup :=
  ((distinctIds_iff label).1 h).1 name

theorem removed_without (hids : label.DistinctIds) (h : (label.part name).find? e.id = some e) :
    Removed name e label (label.modifyPart name (·.without e.id)) := by
  obtain ⟨before, after, helements, hbefore, hafter⟩ :=
    LabelSection.exists_around_of_find? (hids.part name) h
  refine ⟨sameOutside_modifyPart rfl, before, after, helements, ?_⟩
  rw [part_modifyPart_self]
  exact LabelSection.elements_without_of_around helements rfl hbefore hafter

theorem replaced_replace (hids : label.DistinctIds) (h : (label.part name).find? e.id = some e)
    (new : Element) : Replaced name e new label (label.modifyPart name (·.replace e.id new)) := by
  obtain ⟨before, after, helements, hbefore, hafter⟩ :=
    LabelSection.exists_around_of_find? (hids.part name) h
  refine ⟨sameOutside_modifyPart rfl, before, after, helements, ?_⟩
  rw [part_modifyPart_self]
  exact LabelSection.elements_replace_of_around helements rfl hbefore hafter new

/-- How often an id occurs on a label changes by as much as it does in the section that changes. -/
theorem SameOutside.count_ids (h : SameOutside [name] label next) (id : Text) :
    next.ids.count id + (label.part name).ids.count id =
      label.ids.count id + (next.part name).ids.count id := by
  have hother (n : SectionName) (hn : n ≠ name) : (next.part n).ids = (label.part n).ids := by
    rw [LabelSection.ids, LabelSection.ids, h.elements n (by simpa using hn)]
  simp only [ids_eq, List.count_append]
  cases name with
  | header =>
    have hbody : next.body.ids = label.body.ids := hother .body (by decide)
    have hfooter : next.footer.ids = label.footer.ids := hother .footer (by decide)
    rw [hbody, hfooter, part, part]
    omega
  | body =>
    have hheader : next.header.ids = label.header.ids := hother .header (by decide)
    have hfooter : next.footer.ids = label.footer.ids := hother .footer (by decide)
    rw [hheader, hfooter, part, part]
    omega
  | footer =>
    have hheader : next.header.ids = label.header.ids := hother .header (by decide)
    have hbody : next.body.ids = label.body.ids := hother .body (by decide)
    rw [hheader, hbody, part, part]
    omega

theorem Removed.ids_perm (h : Removed name e label next) : label.ids.Perm (e.id :: next.ids) := by
  obtain ⟨before, after, hold, hnew⟩ := h.gone
  rw [List.perm_iff_count]
  intro id
  have hcount := h.toSameOutside.count_ids id
  simp only [LabelSection.ids, hold, hnew, List.map_append, List.map_cons, List.count_append,
    List.count_cons] at hcount
  rw [List.count_cons]
  omega

theorem Appended.ids_perm (h : Appended name e label next) : next.ids.Perm (e.id :: label.ids) := by
  rw [List.perm_iff_count]
  intro id
  have hcount := h.toSameOutside.count_ids id
  simp only [LabelSection.ids, h.last, List.map_append, List.map_cons, List.map_nil,
    List.count_append, List.count_cons, List.count_nil] at hcount
  rw [List.count_cons]
  omega

/-- Taking an element out of one section and placing it in another makes a move of it. -/
theorem Removed.appended {source target : SectionName} {moved : Element} {mid : Label}
    (hremoved : Removed source e label mid) (happended : Appended target moved mid next)
    (hplace : source ≠ target) (hid : moved.id = e.id) :
    Moved source target e moved label next := by
  refine ⟨hremoved.toSameOutside.trans happended.toSameOutside, ?_, ?_, ?_⟩
  · rw [happended.elements source (by simpa using hplace)]
    exact hremoved.gone
  · rw [happended.last, hremoved.elements target (by simpa using hplace.symm)]
  · have hgained := happended.ids_perm
    rw [hid] at hgained
    exact hgained.trans hremoved.ids_perm.symm

end Label

namespace Editor

open Label Schema

/-- What an edit does to a label on a canvas of a zoom, and that it does nothing else. -/
def Edit.ChangesOnly (zoom : Float) (label next : Label) : Edit → Prop
  | .add place e => ∃ name, place = .ok name ∧ Appended name e label next
  | .update place target changes => ∃ name e new, place = .ok name ∧ target = .id e.id ∧
      Replaced name e new label next ∧ e.Rewritten changes new
  | .remove place target => ∃ name e, place = .ok name ∧ target = .id e.id ∧
      Removed name e label next
  | .setImageKey place target key => ∃ name e k, place = .ok name ∧ target = .id e.id ∧
      readOptional readText key = .ok k ∧
      Replaced name e { e with
        imageKey := k
        bitmap := if key.isTruthy then none else e.bitmap
        imageData := if key.isTruthy then none else e.imageData } label next
  | .setImage place target image => ∃ name e bitmap, place = .ok name ∧ target = .id e.id ∧
      image.Holds bitmap ∧ Replaced name e (e.withImage image bitmap) label next
  | .setSectionHeight place height => ∃ name, place = .ok name ∧
      next = label.modifyPart name
        ({ · with height := atLeast minSectionHeight (atMost maxSectionHeight height) })
  | .setCanvasWidth width =>
      next = { label with canvasWidth := atLeast minCanvasWidth (atMost maxCanvasWidth width) }
  | .clear => (∀ n, next.part n = blank.part n) ∧ next.canvasWidth = label.canvasWidth
  | .setTemplate new => next = new
  | .dropTool event freshId =>
      Appended event.target (droppedElement freshId event.tool) label next
  | .moveElement event => ∃ e x, event.elementId = e.id ∧
      draggedTo zoom e.x event.deltaX = .ok x ∧
      ((event.source = event.target ∧ ∃ y, draggedTo zoom e.y event.deltaY = .ok y ∧
          Replaced event.source e { e with x := Float.ofInt x, y := Float.ofInt y } label next) ∨
        (event.source ≠ event.target ∧
          Moved event.source event.target e { e with x := Float.ofInt x, y := dropPosition }
            label next))

variable {label : Label} {place : SectionRef} {target : ElementRef} {r : Edited} {e new : Element}

theorem replaced_of_updateElement {changes : List (String × Json)} (hids : label.DistinctIds)
    (h : updateElement label place target changes = .ok r) :
    ∃ name e new, place = .ok name ∧ target = .id e.id ∧ Replaced name e new label r.label ∧
      e.Rewritten changes new := by
  obtain ⟨name, e, new, hplace, htarget, hfind, -, hnew, rfl⟩ := updateElement_eq_ok_iff.1 h
  exact ⟨name, e, new, hplace, htarget, replaced_replace hids hfind new, rewritten_of_changed hnew⟩

theorem eq_of_rewritten_imageKey {key : Json} (h : e.Rewritten (imageKeyChanges key) new) :
    readOptional readText key = .ok new.imageKey ∧
      new = { e with
        imageKey := new.imageKey
        bitmap := if key.isTruthy then none else e.bitmap
        imageData := if key.isTruthy then none else e.imageData } := by
  unfold imageKeyChanges at h
  cases hkey : key.isTruthy with
  | true =>
    rw [hkey] at h
    have hbitmap : none = new.bitmap := Checked.ok.inj h.bitmap
    have himageData : none = new.imageData := Checked.ok.inj h.imageData
    exact ⟨h.imageKey, Element.ext h.id h.kind h.x h.y h.width h.height h.content h.isDynamic
      h.dataSource rfl h.fontSize h.fontBold h.rotation h.maxChars h.barcodeKind h.showLabel
      hbitmap.symm himageData.symm⟩
  | false =>
    rw [hkey] at h
    exact ⟨h.imageKey, Element.ext h.id h.kind h.x h.y h.width h.height h.content h.isDynamic
      h.dataSource rfl h.fontSize h.fontBold h.rotation h.maxChars h.barcodeKind h.showLabel
      h.bitmap h.imageData⟩

theorem eq_of_rewritten_image {image : ImageEncoding} {bitmap : Bitmap}
    (h : e.Rewritten (imageChanges image bitmap) new) : new = e.withImage image bitmap := by
  have hwidth : readOptional readFloat (.int image.width) = .ok new.width := h.width
  have hheight : readOptional readFloat (.int image.height) = .ok new.height := h.height
  have himageKey : none = new.imageKey := Checked.ok.inj h.imageKey
  have himageData : some image.preview = new.imageData := Checked.ok.inj h.imageData
  have hread : readOptional (Bitmap.read .value) (bitmap.toJson .underscored) = .ok new.bitmap :=
    h.bitmap
  have hbitmap : some bitmap = new.bitmap := by
    have hwritten := readOptional_of_ne_null (v := bitmap.toJson .underscored) Json.noConfusion
      (Bitmap.read_toJson .value .underscored bitmap)
    exact Checked.ok.inj (hwritten.symm.trans hread)
  exact Element.ext h.id h.kind h.x h.y (eq_ofInt_of_readOptional hwidth)
    (eq_ofInt_of_readOptional hheight) h.content h.isDynamic h.dataSource himageKey.symm h.fontSize
    h.fontBold h.rotation h.maxChars h.barcodeKind h.showLabel hbitmap.symm himageData.symm

theorem eq_of_rewritten_place {x y : Int} (h : e.Rewritten [("x", .int x), ("y", .int y)] new) :
    new = { e with x := Float.ofInt x, y := Float.ofInt y } :=
  Element.ext h.id h.kind (eq_ofInt_of_readFloat h.x) (eq_ofInt_of_readFloat h.y) h.width h.height
    h.content h.isDynamic h.dataSource h.imageKey h.fontSize h.fontBold h.rotation h.maxChars
    h.barcodeKind h.showLabel h.bitmap h.imageData

theorem changesOnly_moveElement {zoom : Float} {event : ElementMove} (hids : label.DistinctIds)
    (h : moveElement zoom label event = .ok r) :
    (Edit.moveElement event).ChangesOnly zoom label r.label := by
  obtain ⟨e, x, hid, hfind, hx, hcases⟩ := moveElement_eq_ok_iff.1 h
  rcases hcases with ⟨hsame, y, hy, hupdate⟩ | ⟨hother, rfl⟩
  · obtain ⟨name, old, new, hname, hold, hfound, -, hnew, rfl⟩ :=
      updateElement_eq_ok_iff.1 hupdate
    cases hname
    rw [← ElementRef.id.inj hold, hfind] at hfound
    cases hfound
    have hreplaced := replaced_replace hids hfind new
    rw [eq_of_rewritten_place (rewritten_of_changed hnew)] at hreplaced ⊢
    exact ⟨e, x, hid, hx, .inl ⟨hsame, y, hy, hreplaced⟩⟩
  · have happended := appended_push (label.modifyPart event.source (·.without e.id)) event.target
      { e with x := Float.ofInt x, y := dropPosition }
    have hmoved := (removed_without hids hfind).appended happended hother rfl
    exact ⟨e, x, hid, hx, .inr ⟨hother, hmoved⟩⟩

/-- What an accepted edit makes of a label without repeated ids. -/
theorem changesOnly_apply {zoom : Float} {edit : Edit} (hids : label.DistinctIds)
    (h : edit.apply zoom label = .ok r) : edit.ChangesOnly zoom label r.label := by
  cases edit with
  | add place e =>
    obtain ⟨-, name, hplace, rfl⟩ := addElement_eq_ok_iff.1 h
    exact ⟨name, hplace, appended_push label name e⟩
  | update place target changes =>
    exact replaced_of_updateElement hids (apply_update_eq_ok_iff.1 h).2
  | remove place target =>
    obtain ⟨name, e, hplace, htarget, hfind, rfl⟩ := removeElement_eq_ok_iff.1 h
    exact ⟨name, e, hplace, htarget, removed_without hids hfind⟩
  | setImageKey place target key =>
    obtain ⟨name, e, new, hplace, htarget, hreplaced, hnew⟩ := replaced_of_updateElement hids h
    obtain ⟨hkey, heq⟩ := eq_of_rewritten_imageKey hnew
    rw [heq] at hreplaced
    exact ⟨name, e, new.imageKey, hplace, htarget, hkey, hreplaced⟩
  | setImage place target image =>
    obtain ⟨bitmap, hbitmap, hupdate⟩ := bind_eq_ok_iff.1 h
    rw [mapError_eq_ok_iff, Checked.toExcept_eq_ok_iff] at hbitmap
    obtain ⟨name, e, new, hplace, htarget, hreplaced, hnew⟩ :=
      replaced_of_updateElement hids hupdate
    rw [eq_of_rewritten_image hnew] at hreplaced
    exact ⟨name, e, bitmap, hplace, htarget, ImageEncoding.toBitmap_eq_ok_iff.1 hbitmap, hreplaced⟩
  | setSectionHeight place height =>
    obtain ⟨name, hplace, hr⟩ := bind_eq_ok_iff.1 h
    cases hr
    exact ⟨name, mapError_eq_ok_iff.1 hplace, rfl⟩
  | setCanvasWidth width =>
    cases h
    rfl
  | clear =>
    cases h
    refine ⟨?_, rfl⟩
    intro n
    cases n <;> rfl
  | setTemplate new =>
    cases h
    rfl
  | dropTool event freshId =>
    obtain ⟨-, rfl⟩ := apply_dropTool_eq_ok_iff.1 h
    exact appended_push label event.target _
  | moveElement event => exact changesOnly_moveElement hids h

/-- An edit that is accepted in a session without repeated ids on its label changes only what it is
about, and that to what the edit says. -/
theorem accepted_edit_changes_only (s : Session) (edit : Edit) (outcome : Outcome)
    (hids : s.label.DistinctIds) (h : (s.step (.edit edit)).2 = .ok outcome) :
    edit.ChangesOnly s.zoom s.label (s.step (.edit edit)).1.label := by
  cases happly : edit.apply s.zoom s.label with
  | error err =>
    simp only [Session.step, s.perform_eq, happly] at h
    cases h
  | ok r =>
    have hlabel : (s.accept edit r).label = r.label :=
      Session.ignoresSelection_label.accept s edit r
    simp only [Session.step, s.perform_eq, happly, hlabel]
    exact changesOnly_apply hids happly

/-- An element between two others, and one in another section. -/
def threeAndOne : Session :=
  let header := ["a", "b", "c"].map fun id => droppedElement id .text
  Session.start ((blank.setPart .header ⟨40.0, header⟩).setPart .body
    ⟨10.0, [droppedElement "d" .box]⟩) 5

def dragToBody : Edit := .moveElement ⟨"b", .header, .body, 0.0, 0.0⟩

theorem dragToBody_changes_only :
    threeAndOne.label.DistinctIds ∧ (threeAndOne.step (.edit dragToBody)).2.isOk = true ∧
      dragToBody.ChangesOnly threeAndOne.zoom threeAndOne.label
        (threeAndOne.step (.edit dragToBody)).1.label := by
  have hids : threeAndOne.label.DistinctIds := by decide
  have haccepted : (threeAndOne.step (.edit dragToBody)).2.isOk = true := by decide +kernel
  obtain ⟨outcome, houtcome⟩ := exists_eq_ok haccepted
  exact ⟨hids, haccepted, accepted_edit_changes_only threeAndOne dragToBody outcome hids houtcome⟩

end Editor
end ThermalLabel
