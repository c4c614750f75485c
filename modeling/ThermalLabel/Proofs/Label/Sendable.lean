import ThermalLabel.Proofs.Label.Elements
import ThermalLabel.Proofs.Label.Reading
/-!
# Labels that can be sent

A label with finite numbers is written without a number that has no numeral, and one whose elements
take their picture from one place is read back. Both hold of a label as long as they hold of each
element that comes to it.
-/

namespace ThermalLabel

namespace Element

structure Finite (e : Element) : Prop where
  x : e.x.isFinite = true
  y : e.y.isFinite = true
  width : ∀ w ∈ e.width, w.isFinite = true
  height : ∀ h ∈ e.height, h.isFinite = true
  fontSize : ∀ size ∈ e.fontSize, size.isFinite = true

/-- An element that is written and read back without loss. -/
structure Sendable (e : Element) : Prop where
  finite : e.Finite
  onePicture : e.hasTwoImageSources = false

end Element

namespace Label

structure Finite (label : Label) : Prop where
  heights : ∀ name, (label.part name).height.isFinite = true
  canvasWidth : label.canvasWidth.isFinite = true
  elements : ∀ name, ∀ e ∈ (label.part name).elements, e.Finite

theorem finite_blank : blank.Finite := by
  refine ⟨?_, by decide +kernel, ?_⟩
  · intro name
    cases name <;> decide +kernel
  · intro name e he
    cases name <;> cases he

structure Sendable (label : Label) : Prop where
  finite : label.Finite
  onePictureEach : label.OnePictureEach

/-- A section may change if its height stays and its new elements can be sent. -/
theorem Sendable.modifyPart {label : Label} (h : label.Sendable) (name : SectionName)
    (f : LabelSection → LabelSection) (hheight : (f (label.part name)).height = (label.part name).height)
    (helements : ∀ e ∈ (f (label.part name)).elements,
      e ∈ (label.part name).elements ∨ e.Sendable) : (label.modifyPart name f).Sendable := by
  have hsendable : ∀ n, ∀ e ∈ ((label.modifyPart name f).part n).elements, e.Sendable :=
    forall_elements_modifyPart
      (fun n e he => ⟨h.finite.elements n e he, h.onePictureEach n e he⟩) name f helements
  refine ⟨⟨?_, ?_, fun n e he => (hsendable n e he).finite⟩, fun n e he => (hsendable n e he).onePicture⟩
  · intro n
    rw [part_modifyPart]
    by_cases hn : n = name
    · rw [if_pos hn, hheight]
      exact h.finite.heights name
    · rw [if_neg hn]
      exact h.finite.heights n
  · have hwidth : (label.modifyPart name f).canvasWidth = label.canvasWidth :=
      canvasWidth_setPart label name _
    rw [hwidth]
    exact h.finite.canvasWidth

end Label

open Schema Json

theorem hasNonFinite_float {x : Float} (h : x.isFinite = true) : (Json.float x).hasNonFinite = false := by
  simp [Json.float, hasNonFinite, h]

theorem hasNonFinite_ofOption {α : Type} {write : α → Json} {o : Option α}
    (h : ∀ a ∈ o, (write a).hasNonFinite = false) : (Json.ofOption write o).hasNonFinite = false := by
  cases o with
  | none => rfl
  | some a => exact h a rfl

theorem hasNonFinite_arr {items : List Json} (h : ∀ v ∈ items, v.hasNonFinite = false) :
    (Json.arr items).hasNonFinite = false := by
  have hany : anyNonFinite items = false := by
    induction items with
    | nil => rfl
    | cons v items ih =>
      have hv := h v List.mem_cons_self
      have hitems := ih fun w hw => h w (List.mem_cons_of_mem v hw)
      rw [anyNonFinite, hv, hitems]
      rfl
  exact hany

theorem hasNonFinite_obj {members : List (String × Json)}
    (h : ∀ m ∈ members, m.2.hasNonFinite = false) : (Json.obj members).hasNonFinite = false := by
  have hany : anyMemberNonFinite members = false := by
    induction members with
    | nil => rfl
    | cons m members ih =>
      have hm := h m List.mem_cons_self
      have hmembers := ih fun w hw => h w (List.mem_cons_of_mem m hw)
      rw [anyMemberNonFinite, hm, hmembers]
      rfl
  exact hany

variable {spelling : Spelling}

theorem Element.Finite.hasNonFinite_toJson {e : Element} (h : e.Finite) :
    (e.toJson spelling).hasNonFinite = false := by
  have htext (o : Option Text) : (Json.ofOption .str o).hasNonFinite = false :=
    hasNonFinite_ofOption fun _ _ => rfl
  have hbool (o : Option Bool) : (Json.ofOption .bool o).hasNonFinite = false :=
    hasNonFinite_ofOption fun _ _ => rfl
  have hfloat {o : Option Float} (ho : ∀ x ∈ o, x.isFinite = true) :
      (Json.ofOption .float o).hasNonFinite = false :=
    hasNonFinite_ofOption fun x hx => hasNonFinite_float (ho x hx)
  apply hasNonFinite_obj
  simp only [toMembers, List.forall_mem_cons]
  exact ⟨rfl, rfl, hasNonFinite_float h.x, hasNonFinite_float h.y, hfloat h.width, hfloat h.height,
    htext _, rfl, htext _, htext _, hfloat h.fontSize, hbool _,
    hasNonFinite_ofOption fun _ _ => rfl, hasNonFinite_ofOption fun _ _ => rfl,
    hasNonFinite_ofOption fun _ _ => rfl, hbool _, hasNonFinite_ofOption fun _ _ => rfl, htext _,
    List.forall_mem_nil _⟩

theorem LabelSection.hasNonFinite_toJson {s : LabelSection} (hheight : s.height.isFinite = true)
    (helements : ∀ e ∈ s.elements, e.Finite) : (s.toJson spelling).hasNonFinite = false := by
  have hitems : (Json.arr (s.elements.map (Element.toJson spelling))).hasNonFinite = false := by
    apply hasNonFinite_arr
    intro v hv
    obtain ⟨e, he, rfl⟩ := List.mem_map.1 hv
    exact (helements e he).hasNonFinite_toJson
  apply hasNonFinite_obj
  simp only [List.forall_mem_cons]
  exact ⟨hasNonFinite_float hheight, hitems, List.forall_mem_nil _⟩

theorem Label.Finite.hasNonFinite_toJson {label : Label} (h : label.Finite) :
    (label.toJson spelling).hasNonFinite = false := by
  have hsection (name : SectionName) : ((label.part name).toJson spelling).hasNonFinite = false :=
    LabelSection.hasNonFinite_toJson (h.heights name) (h.elements name)
  apply hasNonFinite_obj
  simp only [List.forall_mem_cons]
  exact ⟨hsection .header, hsection .body, hsection .footer, hasNonFinite_float h.canvasWidth,
    List.forall_mem_nil _⟩

end ThermalLabel
