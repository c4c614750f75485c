import ThermalLabel.Proofs.Editor.AttachedImage
import ThermalLabel.Proofs.Editor.KeptFields
import ThermalLabel.Proofs.Editor.Perform
/-!
# What a refusal says

An edit that is refused for its id names the id and a section. A missing element is missing in the
section that is named, and an edit that addresses a section finds nothing outside of it. A taken id
is found on the whole label; the section named with it has the id as well, unless an update asks for
an id that only other sections have: then the section that the update addresses is named.
-/

namespace ThermalLabel

/-- No element of the section is the one that a client names. -/
def LabelSection.Lacks (s : LabelSection) (target : Editor.ElementRef) : Prop :=
  ∀ id, target = .id id → id ∉ s.ids

namespace Editor

open Schema

variable {label : Label} {place : SectionRef} {target missing : ElementRef} {id : Text}
  {name : SectionName} {e : Element} {changes : List (String × Json)} {err : EditError}

theorem elementOf_eq_error_iff :
    elementOf label name target = .error err ↔
      .notFound target name = err ∧ (label.part name).Lacks target := by
  cases target with
  | other v => simp [elementOf, LabelSection.Lacks]
  | id id =>
    simp only [elementOf, LabelSection.Lacks, ElementRef.id.injEq, forall_eq']
    cases hfind : (label.part name).find? id with
    | none => simp [(LabelSection.find?_eq_none_iff _ _).1 hfind]
    | some found => simp [LabelSection.mem_ids_of_find? hfind]

/-! ## Ids that are taken -/

theorem takenId?_eq_some_iff :
    takenId? label e changes = some id ↔
      Json.member? "id" (changedMembers e changes) = some (.str id) ∧ id ≠ e.id ∧
        label.hasId id = true := by
  unfold takenId?
  split
  · rename_i new hnew
    rw [hnew]
    simp only [Option.ite_none_right_eq_some, Option.some.injEq, Json.str.injEq]
    constructor
    · rintro ⟨htaken, rfl⟩
      exact ⟨rfl, htaken⟩
    · rintro ⟨rfl, htaken⟩
      exact ⟨htaken, rfl⟩
  · rename_i hnone
    constructor
    · intro h
      cases h
    · rintro ⟨hid, -⟩
      exact absurd hid (hnone id)

/-- An edit that does not touch the id of an element keeps it. -/
theorem takenId?_of_not_mem (h : "id" ∉ changes.map Prod.fst) :
    takenId? label e changes = none := by
  have hid : Json.member? "id" (changedMembers e changes) = some (.str e.id) :=
    Json.lookup_overlay_of_not_mem h
  simp [takenId?, hid]

theorem addElement_eq_duplicateId_iff :
    addElement label place e = .error (.duplicateId id name) ↔
      e.id = id ∧ ∃ found, label.find? id = some (name, found) := by
  unfold addElement
  cases hfind : label.find? e.id with
  | none =>
    simp only [sectionOf, bind_eq_error_iff, mapError_eq_error_iff, reduceCtorEq, and_false,
      exists_false, false_or, pure, Except.pure, false_iff]
    rintro ⟨rfl, found, hfound⟩
    rw [hfind] at hfound
    cases hfound
  | some found =>
    obtain ⟨n, other⟩ := found
    simp only [Except.error.injEq, EditError.duplicateId.injEq]
    constructor
    · rintro ⟨rfl, rfl⟩
      exact ⟨rfl, other, hfind⟩
    · rintro ⟨rfl, found, hfound⟩
      rw [hfind] at hfound
      cases hfound
      exact ⟨rfl, rfl⟩

theorem updateElement_eq_duplicateId_iff :
    updateElement label place target changes = .error (.duplicateId id name) ↔
      ∃ e, place = .ok name ∧ elementOf label name target = .ok e ∧
        takenId? label e changes = some id := by
  simp only [updateElement, sectionOf, bind_eq_error_iff, mapError_eq_error_iff, mapError_eq_ok_iff,
    elementOf_eq_error_iff, reduceCtorEq, and_false, false_and, exists_false, false_or]
  constructor
  · rintro ⟨n, hplace, e, he, h⟩
    split at h
    · rename_i taken htaken
      cases h
      exact ⟨e, hplace, he, htaken⟩
    · simp [bind_eq_error_iff, mapError_eq_error_iff, pure, Except.pure] at h
  · rintro ⟨e, hplace, he, htaken⟩
    refine ⟨name, hplace, e, he, ?_⟩
    rw [htaken]
    rfl

/-! ## Elements that are missing -/

theorem updateElement_eq_notFound_iff :
    updateElement label place target changes = .error (.notFound missing name) ↔
      place = .ok name ∧ missing = target ∧ (label.part name).Lacks target := by
  simp only [updateElement, sectionOf, bind_eq_error_iff, mapError_eq_error_iff, mapError_eq_ok_iff,
    elementOf_eq_error_iff, EditError.notFound.injEq, reduceCtorEq, and_false, exists_false,
    false_or]
  constructor
  · rintro ⟨n, hplace, ⟨⟨rfl, rfl⟩, hlacks⟩ | ⟨e, -, h⟩⟩
    · exact ⟨hplace, rfl, hlacks⟩
    · split at h
      · cases h
      · simp [bind_eq_error_iff, mapError_eq_error_iff, pure, Except.pure] at h
  · rintro ⟨hplace, rfl, hlacks⟩
    exact ⟨name, hplace, Or.inl ⟨⟨rfl, rfl⟩, hlacks⟩⟩

theorem removeElement_eq_notFound_iff :
    removeElement label place target = .error (.notFound missing name) ↔
      place = .ok name ∧ missing = target ∧ (label.part name).Lacks target := by
  simp only [removeElement, sectionOf, bind_eq_error_iff, mapError_eq_error_iff, mapError_eq_ok_iff,
    elementOf_eq_error_iff, EditError.notFound.injEq, reduceCtorEq, and_false, exists_false,
    false_or, or_false, pure, Except.pure]
  constructor
  · rintro ⟨n, hplace, ⟨rfl, rfl⟩, hlacks⟩
    exact ⟨hplace, rfl, hlacks⟩
  · rintro ⟨hplace, rfl, hlacks⟩
    exact ⟨name, hplace, ⟨rfl, rfl⟩, hlacks⟩

/-- Once an element is found in a section, the update that a drag within the section ends with finds
it again. -/
theorem moveElement_eq_notFound_iff {zoom : Float} {event : ElementMove} :
    moveElement zoom label event = .error (.notFound missing name) ↔
      event.source = name ∧ missing = .id event.elementId ∧ (label.part name).Lacks missing := by
  simp only [moveElement, bind_eq_error_iff, mapError_eq_error_iff, elementOf_eq_error_iff,
    EditError.notFound.injEq, reduceCtorEq, and_false, exists_false, false_or]
  constructor
  · rintro (⟨⟨rfl, rfl⟩, hlacks⟩ | ⟨e, he, x, -, h⟩)
    · exact ⟨rfl, rfl, hlacks⟩
    · have hfind := (elementOf_eq_ok_iff.1 he).2
      split at h
      · simp only [bind_eq_error_iff, mapError_eq_error_iff, reduceCtorEq, and_false, exists_false,
          false_or, updateElement_eq_notFound_iff, Except.ok.injEq] at h
        obtain ⟨y, -, rfl, -, hlacks⟩ := h
        exact absurd (LabelSection.mem_ids_of_find? hfind) (hlacks e.id rfl)
      · cases h
  · rintro ⟨rfl, rfl, hlacks⟩
    exact Or.inl ⟨⟨rfl, rfl⟩, hlacks⟩

theorem addElement_ne_notFound :
    addElement label place e ≠ .error (.notFound missing name) := by
  unfold addElement
  split
  · simp
  · simp [sectionOf, bind_eq_error_iff, mapError_eq_error_iff, pure, Except.pure]

/-! ## Edits that are refused -/

/-- The edit is about an element that is to be in a section. -/
inductive Edit.Addresses : Edit → SectionName → ElementRef → Prop
  | update {n : SectionName} {t : ElementRef} {members : List (String × Json)}
    (hnames : reservedName? members = none) : Addresses (.update (.ok n) t members) n t
  | remove {n : SectionName} {t : ElementRef} : Addresses (.remove (.ok n) t) n t
  | setImageKey {n : SectionName} {t : ElementRef} {key : Json} :
    Addresses (.setImageKey (.ok n) t key) n t
  | setImage {n : SectionName} {t : ElementRef} {image : ImageEncoding}
    (htotalBytes : 0 ≤ image.totalBytes) (hbytesPerRow : 0 ≤ image.bytesPerRow) :
    Addresses (.setImage (.ok n) t image) n t
  | moveElement {event : ElementMove} :
    Addresses (.moveElement event) event.source (.id event.elementId)

/-- An update that gives an element of a section an id which elements of other sections have, but
none of its own section. -/
def Edit.TakesFromElsewhere (label : Label) (id : Text) (name : SectionName) : Edit → Prop
  | .update place target changes => ∃ e, place = .ok name ∧ elementOf label name target = .ok e ∧
      reservedName? changes = none ∧
      Json.member? "id" (changedMembers e changes) = some (.str id) ∧ label.hasId id = true ∧
      id ∉ (label.part name).ids
  | _ => False

variable {edit : Edit} {zoom : Float}

theorem lacks_of_apply_eq_notFound (h : edit.apply zoom label = .error (.notFound missing name)) :
    (label.part name).Lacks missing := by
  cases edit with
  | add place e => exact absurd h addElement_ne_notFound
  | update place target changes =>
    simp only [Edit.apply] at h
    split at h
    · cases h
    · obtain ⟨-, rfl, hlacks⟩ := updateElement_eq_notFound_iff.1 h
      exact hlacks
  | remove place target =>
    obtain ⟨-, rfl, hlacks⟩ := removeElement_eq_notFound_iff.1 h
    exact hlacks
  | setImageKey place target key =>
    obtain ⟨-, rfl, hlacks⟩ := updateElement_eq_notFound_iff.1 h
    exact hlacks
  | setImage place target image =>
    simp only [Edit.apply, bind_eq_error_iff, mapError_eq_error_iff, reduceCtorEq, and_false,
      exists_false, false_or] at h
    obtain ⟨bitmap, -, h⟩ := h
    obtain ⟨-, rfl, hlacks⟩ := updateElement_eq_notFound_iff.1 h
    exact hlacks
  | setSectionHeight place height =>
    simp [Edit.apply, sectionOf, bind_eq_error_iff, mapError_eq_error_iff, pure, Except.pure] at h
  | setCanvasWidth width => cases h
  | clear => cases h
  | setTemplate new => cases h
  | dropTool event freshId =>
    cases hadd : addElement label (.ok event.target) (droppedElement freshId event.tool) with
    | ok r => simp [Edit.apply, hadd, Except.map] at h
    | error err =>
      simp only [Edit.apply, hadd, Except.map, Except.error.injEq] at h
      exact absurd (h ▸ hadd) addElement_ne_notFound
  | moveElement event =>
    obtain ⟨-, -, hlacks⟩ := moveElement_eq_notFound_iff.1 h
    exact hlacks

theorem apply_eq_notFound_of_lacks (haddressed : edit.Addresses name target)
    (hlacks : (label.part name).Lacks target) :
    edit.apply zoom label = .error (.notFound target name) := by
  cases haddressed with
  | update hnames =>
    simp only [Edit.apply, hnames]
    exact updateElement_eq_notFound_iff.2 ⟨rfl, rfl, hlacks⟩
  | remove => exact removeElement_eq_notFound_iff.2 ⟨rfl, rfl, hlacks⟩
  | setImageKey => exact updateElement_eq_notFound_iff.2 ⟨rfl, rfl, hlacks⟩
  | @setImage _ _ image htotalBytes hbytesPerRow =>
    have hbitmap : image.toBitmap =
        .ok ⟨image.payload, image.totalBytes.toNat, image.bytesPerRow.toNat⟩ :=
      ImageEncoding.toBitmap_eq_ok_iff.2 ⟨rfl, (Int.toNat_of_nonneg htotalBytes).symm,
        (Int.toNat_of_nonneg hbytesPerRow).symm⟩
    simp only [Edit.apply, hbitmap]
    exact updateElement_eq_notFound_iff.2 ⟨rfl, rfl, hlacks⟩
  | moveElement => exact moveElement_eq_notFound_iff.2 ⟨rfl, rfl, hlacks⟩

theorem updateElement_ne_duplicateId (h : "id" ∉ changes.map Prod.fst) :
    updateElement label place target changes ≠ .error (.duplicateId id name) := by
  intro hupdate
  obtain ⟨e, -, -, htaken⟩ := updateElement_eq_duplicateId_iff.1 hupdate
  rw [takenId?_of_not_mem h] at htaken
  cases htaken

/-- The element that an edit brings to a label. -/
def Edit.added? : Edit → Option Element
  | .add _ e => some e
  | .dropTool event freshId => some (droppedElement freshId event.tool)
  | _ => none

theorem apply_of_added {e : Element} (hadded : edit.added? = some e) :
    edit.apply zoom label = .error (.duplicateId id name) ↔
      e.id = id ∧ ∃ found, label.find? id = some (name, found) := by
  cases edit with
  | add place new =>
    cases hadded
    exact addElement_eq_duplicateId_iff
  | dropTool event freshId =>
    cases hadded
    have hadd : addElement label (.ok event.target) (droppedElement freshId event.tool) =
        .error (.duplicateId id name) ↔ _ := addElement_eq_duplicateId_iff
    rw [← hadd, Edit.apply]
    cases addElement label (.ok event.target) (droppedElement freshId event.tool) <;>
      simp [Except.map]
  | _ => cases hadded

/-- An id is refused as taken when an element with it is added, or when an update asks for it. -/
theorem apply_eq_duplicateId_cases
    (h : edit.apply zoom label = .error (.duplicateId id name)) :
    (∃ found, label.find? id = some (name, found)) ∨
      ∃ target changes e, edit = .update (.ok name) target changes ∧
        reservedName? changes = none ∧ elementOf label name target = .ok e ∧
        takenId? label e changes = some id := by
  cases edit with
  | add place e => exact Or.inl ((apply_of_added rfl).1 h).2
  | dropTool event freshId => exact Or.inl ((apply_of_added rfl).1 h).2
  | update place target changes =>
    simp only [Edit.apply] at h
    split at h
    · cases h
    · rename_i hnames
      obtain ⟨e, rfl, he, htaken⟩ := updateElement_eq_duplicateId_iff.1 h
      exact Or.inr ⟨target, changes, e, rfl, hnames, he, htaken⟩
  | remove place target =>
    simp [Edit.apply, removeElement, sectionOf, bind_eq_error_iff, mapError_eq_error_iff,
      elementOf_eq_error_iff, pure, Except.pure] at h
  | setImageKey place target key =>
    exact absurd h (updateElement_ne_duplicateId (keys_imageKeyChanges_not_mem key))
  | setImage place target image =>
    simp only [Edit.apply, bind_eq_error_iff, mapError_eq_error_iff, reduceCtorEq, and_false,
      exists_false, false_or] at h
    obtain ⟨bitmap, -, h⟩ := h
    exact absurd h (updateElement_ne_duplicateId (by simp [imageChanges]))
  | setSectionHeight place height =>
    simp [Edit.apply, sectionOf, bind_eq_error_iff, mapError_eq_error_iff, pure, Except.pure] at h
  | setCanvasWidth width => cases h
  | clear => cases h
  | setTemplate new => cases h
  | moveElement event =>
    simp only [Edit.apply, moveElement, bind_eq_error_iff, mapError_eq_error_iff,
      elementOf_eq_error_iff, reduceCtorEq, and_false, false_and, exists_false, false_or] at h
    obtain ⟨e, -, x, -, h⟩ := h
    split at h
    · simp only [bind_eq_error_iff, mapError_eq_error_iff, reduceCtorEq, and_false, exists_false,
        false_or] at h
      obtain ⟨y, -, h⟩ := h
      exact absurd h (updateElement_ne_duplicateId (by simp))
    · cases h

theorem hasId_of_apply_eq_duplicateId
    (h : edit.apply zoom label = .error (.duplicateId id name)) : label.hasId id = true := by
  rcases apply_eq_duplicateId_cases h with ⟨found, hfound⟩ | ⟨_, _, _, -, -, -, htaken⟩
  · exact Label.hasId_of_mem_ids (Label.mem_ids_of_find? hfound)
  · exact (takenId?_eq_some_iff.1 htaken).2.2

/-- The section named with a taken id does not have it exactly if an update takes the id from
elsewhere. -/
theorem apply_blames_other_iff :
    edit.apply zoom label = .error (.duplicateId id name) ∧ id ∉ (label.part name).ids ↔
      edit.TakesFromElsewhere label id name := by
  constructor
  · rintro ⟨h, hfree⟩
    rcases apply_eq_duplicateId_cases h with ⟨found, hfound⟩ |
      ⟨target, changes, e, rfl, hnames, he, htaken⟩
    · exact absurd (Label.mem_ids_of_find? hfound) hfree
    · obtain ⟨hmember, -, hid⟩ := takenId?_eq_some_iff.1 htaken
      exact ⟨e, rfl, he, hnames, hmember, hid, hfree⟩
  · intro h
    cases edit with
    | update place target changes =>
      obtain ⟨e, rfl, he, hnames, hmember, hid, hfree⟩ := h
      have hnew : id ≠ e.id := by
        rintro rfl
        exact hfree (LabelSection.mem_ids_of_find? (elementOf_eq_ok_iff.1 he).2)
      refine ⟨?_, hfree⟩
      simp only [Edit.apply, hnames]
      exact updateElement_eq_duplicateId_iff.2
        ⟨e, rfl, he, takenId?_eq_some_iff.2 ⟨hmember, hnew, hid⟩⟩
    | _ => cases h

theorem Session.step_eq_error_cases {s : Session} {op : Operation}
    (h : (s.step op).2 = .error err) :
    (∃ edit, op = .edit edit ∧ edit.apply s.zoom s.label = .error err) ∨
      ∃ cause, err = .unknownSection cause := by
  cases op with
  | edit edit =>
    left
    refine ⟨edit, rfl, ?_⟩
    simp only [step, perform_eq] at h
    cases happly : edit.apply s.zoom s.label with
    | ok r => simp [happly, Except.map] at h
    | error e =>
      simp only [happly, Except.map, Except.error.injEq] at h
      rw [h]
  | select target place =>
    right
    rcases place with _ | cause | name
    · cases h
    · cases h
      exact ⟨cause, rfl⟩
    · cases h
  | setZoom zoom => cases h
  | undo =>
    simp only [step] at h
    cases hundo : s.undo? <;> simp [hundo] at h
  | redo =>
    simp only [step] at h
    cases hredo : s.redo? <;> simp [hredo] at h

theorem Session.step_edit_eq_error {s : Session} {edit : Edit}
    (h : edit.apply s.zoom s.label = .error err) : (s.step (.edit edit)).2 = .error err := by
  simp only [step, perform_eq, h]
  rfl

/-- An id that is refused as taken is on the label, and in the section named with it unless an
update takes it from elsewhere. An element that is reported missing is missing in the section named.
In turn, an element with an id that any section has is never added, and an edit that addresses a
section without the element is refused, whatever the other sections hold. -/
theorem refusals_name_sections (s : Session) :
    (∀ op id name, (s.step op).2 = .error (.duplicateId id name) → s.label.hasId id = true) ∧
    (∀ op id name,
      (s.step op).2 = .error (.duplicateId id name) ∧ id ∉ (s.label.part name).ids ↔
        ∃ edit, op = .edit edit ∧ edit.TakesFromElsewhere s.label id name) ∧
    (∀ op missing name, (s.step op).2 = .error (.notFound missing name) →
      (s.label.part name).Lacks missing) ∧
    (∀ edit e, edit.added? = some e → s.label.hasId e.id = true →
      ∃ name, (s.step (.edit edit)).2 = .error (.duplicateId e.id name) ∧
        e.id ∈ (s.label.part name).ids) ∧
    (∀ edit name target, edit.Addresses name target → (s.label.part name).Lacks target →
      (s.step (.edit edit)).2 = .error (.notFound target name)) ∧
    ∀ name target err, lookUp s.label (.ok name) target = .error err ↔
      err = .notFound target name ∧ (s.label.part name).Lacks target := by
  refine ⟨?_, ?_, ?_, ?_, ?_, ?_⟩
  · intro op id name h
    rcases Session.step_eq_error_cases h with ⟨edit, -, happly⟩ | ⟨cause, hcause⟩
    · exact hasId_of_apply_eq_duplicateId happly
    · cases hcause
  · intro op id name
    constructor
    · rintro ⟨h, hfree⟩
      rcases Session.step_eq_error_cases h with ⟨edit, rfl, happly⟩ | ⟨cause, hcause⟩
      · exact ⟨edit, rfl, apply_blames_other_iff.1 ⟨happly, hfree⟩⟩
      · cases hcause
    · rintro ⟨edit, rfl, htakes⟩
      obtain ⟨happly, hfree⟩ := apply_blames_other_iff.2 htakes
      exact ⟨Session.step_edit_eq_error happly, hfree⟩
  · intro op missing name h
    rcases Session.step_eq_error_cases h with ⟨edit, -, happly⟩ | ⟨cause, hcause⟩
    · exact lacks_of_apply_eq_notFound happly
    · cases hcause
  · intro edit e hadded hid
    obtain ⟨⟨name, found⟩, hfound⟩ := Option.isSome_iff_exists.1 hid
    refine ⟨name, Session.step_edit_eq_error ?_, Label.mem_ids_of_find? hfound⟩
    exact (apply_of_added hadded).2 ⟨rfl, found, hfound⟩
  · intro edit name target haddressed hlacks
    exact Session.step_edit_eq_error (apply_eq_notFound_of_lacks haddressed hlacks)
  · intro name target err
    have hlookUp : lookUp s.label (.ok name) target = elementOf s.label name target := rfl
    rw [hlookUp, elementOf_eq_error_iff]
    exact and_congr_left' eq_comm

/-- A text in the header and a box in the footer. -/
def oneAbove : Session :=
  Session.start ((Label.blank.setPart .header ⟨40.0, [droppedElement "a" .text]⟩).setPart .footer
    ⟨20.0, [droppedElement "b" .box]⟩) 5

def renameToOther : Edit := .update (.ok .header) (.id "a") [("id", .str "b")]

/-- The header is blamed for the id of the footer, and the text is not found in the body. -/
theorem oneAbove_refuses :
    ((oneAbove.step (.edit renameToOther)).2 = .error (.duplicateId "b" .header) ∧
        .plain "b" ∉ (oneAbove.label.part .header).ids) ∧
      (∃ name, (oneAbove.step (.edit (.dropTool ⟨.text, .body⟩ "b"))).2 =
        .error (.duplicateId "b" name) ∧ .plain "b" ∈ (oneAbove.label.part name).ids) ∧
      (oneAbove.step (.edit (.remove (.ok .body) (.id "a")))).2 =
        .error (.notFound (.id "a") .body) := by
  obtain ⟨-, hother, -, hadded, haddressed, -⟩ := refusals_name_sections oneAbove
  refine ⟨?_, ?_, ?_⟩
  · refine (hother _ "b" .header).2 ⟨renameToOther, rfl, droppedElement "a" .text, rfl, rfl, rfl,
      rfl, rfl, ?_⟩
    decide
  · exact hadded _ (droppedElement "b" .text) rfl rfl
  · refine haddressed _ _ _ .remove ?_
    intro id _
    exact List.not_mem_nil

theorem taken_id_not_in_named_section :
    ¬ ∀ op id name, (oneAbove.step op).2 = .error (.duplicateId id name) →
      id ∈ (oneAbove.label.part name).ids := by
  intro h
  have hmem := h (.edit renameToOther) "b" .header rfl
  exact absurd hmem (by decide)

end Editor
end ThermalLabel
