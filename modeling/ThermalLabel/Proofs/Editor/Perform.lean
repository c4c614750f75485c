import ThermalLabel.Editor.Session
import ThermalLabel.Proofs.Editor.Apply
/-!
# Edits as actions and as functions of a label

`Edit.apply` says what an edit makes of a label, an action carries the edit out in a session, one
step after the other. Each action agrees with its function: it commits the label that the function
gives, and where the function refuses, the action has changed nothing.
-/

namespace ThermalLabel.Editor

open Schema

/-- The selection that an edit gives up: that of a removed element, and any on a whole new label. -/
def deselectedBy (selected : ElementRef) : Edit → Bool
  | .remove _ target => selected.sameId target
  | .clear | .setTemplate _ => true
  | _ => false

/-- A session after an accepted edit, its selection included. -/
def Session.accept (s : Session) (edit : Edit) (r : Edited) : Session :=
  let next := s.commit r.name r.label
  if deselectedBy s.selectedElement edit then next.deselect else next

namespace Action

/-- What an action leaves behind that makes a session of the result of a function, and does
nothing where the function refuses. -/
def settled (s : Session) (next : Edited → Session) :
    Except EditError Edited → EStateM.Result EditError Session (Option Element)
  | .ok r => .ok r.element (next r)
  | .error e => .error e s

variable {α : Type} {s : Session} {next : Edited → Session}

private theorem run_get_bind (f : Session → Action α) : (get >>= f).run s = (f s).run s := rfl

/-- An action and a function that check the same thing first agree if they agree from there on. -/
private theorem run_check_bind (x : Except EditError α) {f : α → Action (Option Element)}
    {g : α → Except EditError Edited} (h : ∀ a, (f a).run s = settled s next (g a)) :
    (check x >>= f).run s = settled s next (x >>= g) := by
  cases x with
  | error e => rfl
  | ok a => exact h a

theorem run_addElement (s : Session) (place : SectionRef) (e : Element) :
    (addElement place e).run s =
      settled s (fun r => s.commit r.name r.label) (Editor.addElement s.label place e) := by
  unfold addElement Editor.addElement
  rw [run_get_bind]
  cases s.label.find? e.id with
  | some found => rfl
  | none =>
    apply run_check_bind
    intro name
    rfl

theorem run_updateElement (s : Session) (place : SectionRef) (target : ElementRef)
    (changes : List (String × Json)) :
    (updateElement place target changes).run s =
      settled s (fun r => s.commit r.name r.label)
        (Editor.updateElement s.label place target changes) := by
  unfold updateElement Editor.updateElement
  rw [run_get_bind]
  apply run_check_bind
  intro name
  apply run_check_bind
  intro e
  cases takenId? s.label e changes with
  | some taken => rfl
  | none =>
    apply run_check_bind
    intro new
    rfl

theorem run_removeElement (s : Session) (place : SectionRef) (target : ElementRef) :
    (removeElement place target).run s =
      settled s (s.accept (.remove place target)) (Editor.removeElement s.label place target) := by
  unfold removeElement Editor.removeElement
  rw [run_get_bind]
  apply run_check_bind
  intro name
  apply run_check_bind
  intro e
  -- The element is deselected after its label is committed, if it was selected before.
  cases hselected : s.selectedElement.sameId target with
  | true =>
    have hdeselected : deselectedBy s.selectedElement (.remove place target) = true := hselected
    simp only [settled, pure, Except.pure, Session.accept, hdeselected, if_true]
    rfl
  | false =>
    have hkept : deselectedBy s.selectedElement (.remove place target) = false := hselected
    simp only [settled, pure, Except.pure, Session.accept, hkept]
    rfl

theorem run_moveElement (s : Session) (event : ElementMove) :
    (moveElement event).run s =
      settled s (fun r => s.commit r.name r.label)
        (Editor.moveElement s.zoom s.label event) := by
  unfold moveElement Editor.moveElement
  rw [run_get_bind]
  apply run_check_bind
  intro e
  apply run_check_bind
  intro x
  by_cases hplace : event.source = event.target
  · simp only [if_pos hplace]
    apply run_check_bind
    intro y
    exact run_updateElement s _ _ _
  · simp only [if_neg hplace]
    rfl

/-- Each action does what the function of its edit says. -/
theorem run_ofEdit (s : Session) (edit : Edit) :
    (ofEdit edit).run s = settled s (s.accept edit) (edit.apply s.zoom s.label) := by
  cases edit with
  | add place e => exact run_addElement s place e
  | update place target changes =>
    simp only [ofEdit, Edit.apply]
    cases reservedName? changes with
    | some name => rfl
    | none => exact run_updateElement s place target changes
  | remove place target => exact run_removeElement s place target
  | setImageKey place target key => exact run_updateElement s place target _
  | setImage place target image =>
    apply run_check_bind
    intro bitmap
    exact run_updateElement s place target (imageChanges image bitmap)
  | setSectionHeight place height =>
    simp only [ofEdit, setSectionHeight, Edit.apply]
    rw [run_get_bind]
    apply run_check_bind
    intro name
    rfl
  | setCanvasWidth width => rfl
  | clear => rfl
  | setTemplate label => rfl
  | dropTool event freshId =>
    have hadd := run_addElement s (.ok event.target) (droppedElement freshId event.tool)
    simp only [ofEdit, dropTool, Edit.apply, EStateM.run_bind, hadd]
    cases Editor.addElement s.label (.ok event.target) (droppedElement freshId event.tool) with
    | error err => rfl
    | ok r => rfl
  | moveElement event => exact run_moveElement s event

end Action

/-- What an edit does to a session: the label that its function gives is committed, or else
nothing happens. -/
theorem Session.perform_eq (s : Session) (edit : Edit) :
    s.perform edit =
      match edit.apply s.zoom s.label with
      | .ok r => (s.accept edit r, .ok r.element)
      | .error e => (s, .error e) := by
  simp only [perform, Action.run_ofEdit]
  cases edit.apply s.zoom s.label with
  | error err => rfl
  | ok r => rfl

/-- An edit that is refused leaves label, histories, selection and zoom as they were, wherever in
the edit the refusal comes. -/
theorem refused_edit_keeps_session (s : Session) (edit : Edit) (e : EditError)
    (h : (s.step (.edit edit)).2 = .error e) : (s.step (.edit edit)).1 = s := by
  have hstep := s.perform_eq edit
  simp only [Session.step] at h ⊢
  cases happly : edit.apply s.zoom s.label with
  | ok r =>
    rw [happly] at hstep
    rw [hstep] at h
    cases h
  | error err =>
    rw [happly] at hstep
    rw [hstep]

/-- A session in use, with an id twice on its label. -/
def twoAlike : Session :=
  let label := Label.blank.setPart .header
    ⟨40.0, [{ droppedElement "a" .text with x := 0.0 }, droppedElement "a" .box]⟩
  { Session.start label 1 with
    selectedElement := .id "a"
    selectedSection := some .header
    past := [⟨.clearCanvas, Label.blank⟩] }

set_option maxRecDepth 4000 in
/-- The element is found and its way to the right is fine; its way down is not. -/
theorem drag_too_far_keeps_session :
    let drag : Operation := .edit (.moveElement ⟨"a", .header, .header, 0.0, 1.0 / 0.0⟩)
    (twoAlike.step drag).2 = .error (.number .roundTooManyDigits) ∧
      (twoAlike.step drag).1 = twoAlike :=
  ⟨rfl, refused_edit_keeps_session twoAlike _ (.number .roundTooManyDigits) rfl⟩

end ThermalLabel.Editor
