import ThermalLabel.Proofs.Editor.Apply
import ThermalLabel.Proofs.Fallible
/-!
# When an edit is accepted, and with what result

For each kind of edit, everything that has to hold for it to be accepted, and the label that then
comes of it. Edits that only prepare members for another kind are left to that kind.
-/

namespace ThermalLabel

theorem Schema.Checked.toExcept_eq_ok_iff {α : Type} {x : Checked α} {a : α} :
    x.toExcept = .ok a ↔ x = .ok a := by
  cases x <;> simp [toExcept]

namespace Editor

open Schema

variable {label : Label} {place : SectionRef} {target : ElementRef} {r : Edited}

theorem elementOf_eq_ok_iff {name : SectionName} {e : Element} :
    elementOf label name target = .ok e ↔
      target = .id e.id ∧ (label.part name).find? e.id = some e := by
  cases target with
  | other v => simp [elementOf]
  | id id =>
    simp only [elementOf, ElementRef.id.injEq]
    cases hfind : (label.part name).find? id with
    | none =>
      constructor
      · intro h
        cases h
      · rintro ⟨rfl, h⟩
        rw [hfind] at h
        cases h
    | some found =>
      have hid := LabelSection.id_of_find? hfind
      constructor
      · intro h
        cases h
        exact ⟨hid.symm, hid ▸ hfind⟩
      · rintro ⟨rfl, h⟩
        rw [hfind] at h
        cases h
        rfl

theorem addElement_eq_ok_iff {e : Element} :
    addElement label place e = .ok r ↔
      label.find? e.id = none ∧
        ∃ name, place = .ok name ∧
          r = ⟨.addElement, label.modifyPart name (·.push e), none⟩ := by
  unfold addElement
  cases label.find? e.id with
  | some found => simp
  | none =>
    simp only [sectionOf, bind_eq_ok_iff, mapError_eq_ok_iff, pure, Except.pure,
      Except.ok.injEq, true_and]
    constructor
    · rintro ⟨name, hplace, rfl⟩
      exact ⟨name, hplace, rfl⟩
    · rintro ⟨name, hplace, rfl⟩
      exact ⟨name, hplace, rfl⟩

theorem updateElement_eq_ok_iff {changes : List (String × Json)} :
    updateElement label place target changes = .ok r ↔
      ∃ name e new, place = .ok name ∧ target = .id e.id ∧
        (label.part name).find? e.id = some e ∧ takenId? label e changes = none ∧
        changed e changes = .ok new ∧
        r = ⟨.updateElement, label.modifyPart name (·.replace e.id new), some new⟩ := by
  simp only [updateElement, sectionOf, bind_eq_ok_iff, mapError_eq_ok_iff, elementOf_eq_ok_iff]
  constructor
  · rintro ⟨name, hplace, e, ⟨htarget, hfind⟩, h⟩
    cases htaken : takenId? label e changes with
    | some taken =>
      rw [htaken] at h
      cases h
    | none =>
      rw [htaken] at h
      obtain ⟨new, hnew, hr⟩ := bind_eq_ok_iff.1 h
      rw [mapError_eq_ok_iff, Checked.toExcept_eq_ok_iff] at hnew
      cases hr
      exact ⟨name, e, new, hplace, htarget, hfind, htaken, hnew, rfl⟩
  · rintro ⟨name, e, new, hplace, htarget, hfind, htaken, hnew, rfl⟩
    refine ⟨name, hplace, e, ⟨htarget, hfind⟩, ?_⟩
    rw [htaken]
    refine bind_eq_ok_iff.2 ⟨new, ?_, rfl⟩
    rw [mapError_eq_ok_iff, Checked.toExcept_eq_ok_iff]
    exact hnew

theorem removeElement_eq_ok_iff :
    removeElement label place target = .ok r ↔
      ∃ name e, place = .ok name ∧ target = .id e.id ∧
        (label.part name).find? e.id = some e ∧
        r = ⟨.removeElement, label.modifyPart name (·.without e.id), none⟩ := by
  simp only [removeElement, sectionOf, bind_eq_ok_iff, mapError_eq_ok_iff, elementOf_eq_ok_iff,
    pure, Except.pure, Except.ok.injEq]
  constructor
  · rintro ⟨name, hplace, e, ⟨htarget, hfind⟩, rfl⟩
    exact ⟨name, e, hplace, htarget, hfind, rfl⟩
  · rintro ⟨name, e, hplace, htarget, hfind, rfl⟩
    exact ⟨name, hplace, e, ⟨htarget, hfind⟩, rfl⟩

theorem apply_update_eq_ok_iff {zoom : Float} {changes : List (String × Json)} :
    (Edit.update place target changes).apply zoom label = .ok r ↔
      reservedName? changes = none ∧ updateElement label place target changes = .ok r := by
  simp only [Edit.apply]
  cases reservedName? changes <;> simp

/-- A tool is dropped where its element can be added. -/
theorem apply_dropTool_eq_ok_iff {zoom : Float} {event : ToolDrop} {freshId : String} :
    (Edit.dropTool event freshId).apply zoom label = .ok r ↔
      label.find? freshId = none ∧
        r = ⟨.addElement,
          label.modifyPart event.target (·.push (droppedElement freshId event.tool)),
          some (droppedElement freshId event.tool)⟩ := by
  have hid : (droppedElement freshId event.tool).id = freshId := rfl
  simp only [Edit.apply, addElement, hid]
  cases label.find? freshId with
  | some found => simp [Except.map]
  | none =>
    constructor
    · intro h
      cases h
      exact ⟨rfl, rfl⟩
    · rintro ⟨-, rfl⟩
      rfl

/-- Within a section a move is an update; between sections only the first direction counts. -/
theorem moveElement_eq_ok_iff {zoom : Float} {event : ElementMove} :
    moveElement zoom label event = .ok r ↔
      ∃ e x, event.elementId = e.id ∧ (label.part event.source).find? e.id = some e ∧
        draggedTo zoom e.x event.deltaX = .ok x ∧
        ((event.source = event.target ∧
            ∃ y, draggedTo zoom e.y event.deltaY = .ok y ∧
              updateElement label (.ok event.source) (.id e.id) [("x", .int x), ("y", .int y)] =
                .ok r) ∨
          (event.source ≠ event.target ∧
            r = ⟨.moveElement,
              (label.modifyPart event.source (·.without e.id)).modifyPart event.target
                (·.push { e with x := Float.ofInt x, y := dropPosition }),
              some { e with x := Float.ofInt x, y := dropPosition }⟩)) := by
  simp only [moveElement, bind_eq_ok_iff, mapError_eq_ok_iff, elementOf_eq_ok_iff,
    ElementRef.id.injEq]
  constructor
  · rintro ⟨e, ⟨hid, hfind⟩, x, hx, h⟩
    refine ⟨e, x, hid, hfind, hx, ?_⟩
    by_cases hplace : event.source = event.target
    · rw [if_pos hplace, bind_eq_ok_iff] at h
      obtain ⟨y, hy, hupdate⟩ := h
      exact Or.inl ⟨hplace, y, mapError_eq_ok_iff.1 hy, hupdate⟩
    · rw [if_neg hplace] at h
      cases h
      exact Or.inr ⟨hplace, rfl⟩
  · rintro ⟨e, x, hid, hfind, hx, h⟩
    refine ⟨e, ⟨hid, hfind⟩, x, hx, ?_⟩
    rcases h with ⟨hplace, y, hy, hupdate⟩ | ⟨hplace, rfl⟩
    · rw [if_pos hplace, bind_eq_ok_iff]
      exact ⟨y, mapError_eq_ok_iff.2 hy, hupdate⟩
    · rw [if_neg hplace]
      rfl

end Editor
end ThermalLabel
