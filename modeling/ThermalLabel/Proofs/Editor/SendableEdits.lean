import ThermalLabel.Proofs.Editor.Accepted
import ThermalLabel.Proofs.Label.Elements
import ThermalLabel.Proofs.Label.RoundTrip
import ThermalLabel.Proofs.Label.Sendable
import ThermalLabel.Proofs.Number.Finite
/-!
# Edits that keep a label sendable

An element added, a tool dropped and an element moved leave a label that can be sent. A drag ends on
a whole number of at most twenty-nine digits, and to that there is a finite binary number, whether
the element is read again in its section or carried over to another one as it is.
-/

namespace ThermalLabel

namespace Schema

variable {α : Type} {check : Json → Checked α} {f : FieldName} {members : List (String × Json)}
  {key : String} {v : Json} {a : α}

theorem check_of_withDefault {default : α} (h : withDefault f default check members = .ok a)
    (hfind : f.find? members = some (key, v)) : check v = .ok a := by
  rw [withDefault, hfind] at h
  exact (Checked.within_eq_ok_iff _ _ _).1 h

theorem isFinite_of_readFloat_int {n : Int} {x : Float} (h : readFloat (.int n) = .ok x) :
    x.isFinite = true := by
  cases hn : ofInteger n with
  | error err => simp [Json.int, readFloat, hn] at h
  | ok y =>
    have hy : readFloat (.int n) = .ok y := by simp [Json.int, readFloat, hn]
    cases hy.symm.trans h
    exact isFinite_of_ofInteger hn

end Schema

namespace Editor

open Schema

variable {label : Label} {r : Edited}

theorem isFinite_of_draggedTo {zoom start distance : Float} {n : Int}
    (h : draggedTo zoom start distance = .ok n) : (Float.ofInt n).isFinite = true := by
  unfold draggedTo snap at h
  cases hround : roundHalfUp (atLeast 0.0 (start + screenToLogical distance zoom) / 10.0) with
  | error err =>
    rw [hround] at h
    cases h
  | ok m =>
    rw [hround] at h
    cases h
    have hdigits := natAbs_lt_of_roundHalfUp hround
    apply isFinite_ofInt
    change (m * 10).natAbs < 2 ^ 256
    omega

private theorem isFinite_of_mem_ite {c : Prop} [Decidable c] {size : Float}
    (hsize : size.isFinite = true) :
    ∀ x ∈ (if c then some size else none), x.isFinite = true := by
  intro x hx
  by_cases hc : c
  · rw [if_pos hc] at hx
    cases hx
    exact hsize
  · rw [if_neg hc] at hx
    cases hx

theorem isFinite_dropPosition : dropPosition.isFinite = true := by decide

theorem droppedElement_sendable (id : String) (tool : ElementKind) :
    (droppedElement id tool).Sendable := by
  have hwidth : (100.0 : Float).isFinite = true := by decide
  have hheight : (50.0 : Float).isFinite = true := by decide
  have hfont : (12.0 : Float).isFinite = true := by decide
  refine ⟨⟨isFinite_dropPosition, isFinite_dropPosition, isFinite_of_mem_ite hwidth,
    isFinite_of_mem_ite hheight, ?_⟩, rfl⟩
  intro size hsize
  cases hsize
  exact hfont

/-- An element read again with whole numbers for its coordinates. -/
theorem sendable_of_changed {e new : Element} {x y : Int} (he : e.Sendable)
    (h : changed e [("x", .int x), ("y", .int y)] = .ok new) : new.Sendable := by
  -- The fields that are not overwritten are read back from where they were written.
  have hfloat : ∀ x, Json.float x ≠ .null := fun _ => Json.noConfusion
  obtain ⟨hfields, hpicture⟩ := Element.ofMembers_eq_ok_iff.1 h
  obtain ⟨-, -, hx, hy, hwidth, hheight, -, -, -, -, hfontSize, -⟩ :=
    Element.fieldsOf_eq_ok_iff.1 hfields
  have hwidth' : e.width = new.width :=
    Checked.ok.inj ((optional_of_find? rfl readFloat_float hfloat).symm.trans hwidth)
  have hheight' : e.height = new.height :=
    Checked.ok.inj ((optional_of_find? rfl readFloat_float hfloat).symm.trans hheight)
  have hfontSize' : e.fontSize = new.fontSize :=
    Checked.ok.inj ((optional_of_find? rfl readFloat_float hfloat).symm.trans hfontSize)
  exact {
    finite := {
      x := isFinite_of_readFloat_int (check_of_withDefault hx rfl)
      y := isFinite_of_readFloat_int (check_of_withDefault hy rfl)
      width := hwidth' ▸ he.finite.width
      height := hheight' ▸ he.finite.height
      fontSize := hfontSize' ▸ he.finite.fontSize }
    onePicture := hpicture }

/-- An element carried over to another section as it is, but for its coordinates. -/
theorem sendable_of_moved {e : Element} {x : Int} (he : e.Sendable)
    (hx : (Float.ofInt x).isFinite = true) :
    Element.Sendable { e with x := Float.ofInt x, y := dropPosition } :=
  ⟨⟨hx, isFinite_dropPosition, he.finite.width, he.finite.height, he.finite.fontSize⟩,
    he.onePicture⟩

theorem sendable_of_find? (hlabel : label.Sendable) {name : SectionName} {id : Text} {e : Element}
    (h : (label.part name).find? id = some e) : e.Sendable :=
  have hmem := LabelSection.mem_of_find? h
  ⟨hlabel.finite.elements name e hmem, hlabel.onePictureEach name e hmem⟩

private theorem sendable_push (hlabel : label.Sendable) (name : SectionName) {e : Element}
    (he : e.Sendable) : (label.modifyPart name (·.push e)).Sendable := by
  apply hlabel.modifyPart
  · rfl
  · intro new hnew
    rcases LabelSection.mem_elements_push.1 hnew with hold | rfl
    · exact Or.inl hold
    · exact Or.inr he

theorem sendable_addElement {place : SectionRef} {e : Element} (hlabel : label.Sendable)
    (he : e.Sendable) (h : addElement label place e = .ok r) :
    r.label.Sendable ∧ ∀ e ∈ r.element, e.Sendable := by
  obtain ⟨-, name, -, rfl⟩ := addElement_eq_ok_iff.1 h
  refine ⟨sendable_push hlabel name he, ?_⟩
  intro e he
  cases he

theorem sendable_dropTool {event : ToolDrop} {freshId : String} {zoom : Float}
    (hlabel : label.Sendable) (h : (Edit.dropTool event freshId).apply zoom label = .ok r) :
    r.label.Sendable ∧ ∀ e ∈ r.element, e.Sendable := by
  have hdropped := droppedElement_sendable freshId event.tool
  obtain ⟨-, rfl⟩ := apply_dropTool_eq_ok_iff.1 h
  refine ⟨sendable_push hlabel event.target hdropped, ?_⟩
  intro e he
  cases he
  exact hdropped

private theorem sendable_replace (hlabel : label.Sendable) (name : SectionName) (id : Text)
    {new : Element} (hnew : new.Sendable) :
    (label.modifyPart name (·.replace id new)).Sendable := by
  apply hlabel.modifyPart
  · rfl
  · intro e he
    rcases LabelSection.mem_elements_replace he with hold | rfl
    · exact Or.inl hold
    · exact Or.inr hnew

private theorem sendable_without (hlabel : label.Sendable) (name : SectionName) (id : Text) :
    (label.modifyPart name (·.without id)).Sendable := by
  apply hlabel.modifyPart
  · rfl
  · intro e he
    exact Or.inl (LabelSection.mem_elements_without he)

theorem sendable_moveElement {zoom : Float} {event : ElementMove} (hlabel : label.Sendable)
    (h : moveElement zoom label event = .ok r) :
    r.label.Sendable ∧ ∀ e ∈ r.element, e.Sendable := by
  obtain ⟨e, x, -, hfind, hx, hcases⟩ := moveElement_eq_ok_iff.1 h
  have he := sendable_of_find? hlabel hfind
  rcases hcases with ⟨-, y, -, hupdate⟩ | ⟨-, rfl⟩
  · obtain ⟨name, old, new, -, hid, hold, -, hnew, rfl⟩ := updateElement_eq_ok_iff.1 hupdate
    have hnew := sendable_of_changed (sendable_of_find? hlabel hold) hnew
    refine ⟨sendable_replace hlabel name old.id hnew, ?_⟩
    intro e he
    cases he
    exact hnew
  · have hmoved := sendable_of_moved he (isFinite_of_draggedTo hx)
    refine ⟨sendable_push (sendable_without hlabel event.source e.id) event.target hmoved, ?_⟩
    intro e he
    cases he
    exact hmoved

end Editor
end ThermalLabel
