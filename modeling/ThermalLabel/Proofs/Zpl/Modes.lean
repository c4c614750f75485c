import Mathlib
import ThermalLabel.Editor.Edit
import ThermalLabel.Proofs.SampleData.Scope
/-!
# What the mode changes

An element that is not bound to a data source shows its own content, on samples and for the printer
alike, so that neither the mode nor the data should make a difference to it. They make none to
literal elements, whose texts are cut in both modes. But an element that is dynamic and has no
data source passes for the name of one: its text is cut on samples only.
-/

namespace ThermalLabel

open SampleData

namespace Zpl

variable {data data' : SampleData} {e : Element} {mode mode' : Mode} {row row' : Option DataRecord}
  {offset : Float}

/-- A text that is cut on samples, and that the printer gets whole as if it named a data source. -/
structure CutOnSamplesOnly (e : Element) : Prop where
  kind : e.kind = .text
  isDynamic : e.isDynamic = true
  cut : ∃ limit, e.maxChars = some limit ∧ 0 < limit ∧
    cutText (e.content.getD "") (some limit) ellipsis ≠ e.content.getD ""

/-! ## What a field shows -/

theorem shownText_template_of_isDynamic (h : e.isDynamic = true) (content : Text) :
    shownText .template e content = content := by
  unfold shownText
  cases e.maxChars <;> simp [h]

theorem shownText_of_literal (h : e.isDynamic = false) (content : Text) :
    shownText mode e content = shownText mode' e content := by
  unfold shownText
  cases e.maxChars <;> simp [h]

/-- A literal text longer than a limit is cut to it, and marked as cut. -/
theorem shownText_of_lt {content : Text} {limit : Nat} (h : e.isDynamic = false)
    (hlimit : e.maxChars = some limit) (hpos : 0 < limit) (hlong : limit < content.length) :
    shownText mode e content = Text.ofPoints (content.points.take limit) ++ ellipsis := by
  have hkept : ¬ (limit = 0 ∨ e.isDynamic = true ∧ mode = .template) := by
    rw [h]
    simp [hpos.ne']
  have hover : ¬ (content.length : Int) ≤ limit := by omega
  have hkeep : keepFirst limit content.points = content.points.take limit := by simp [keepFirst]
  simp only [shownText, hlimit, if_neg hkept, cutText, if_neg hover, hkeep]

theorem shownText_eq_iff (hkind : e.kind = .text) :
    shownText .sample e (e.content.getD "") = shownText .template e (e.content.getD "") ↔
      ¬ CutOnSamplesOnly e := by
  by_cases hdynamic : e.isDynamic = true
  · rw [shownText_template_of_isDynamic hdynamic]
    constructor
    · rintro h ⟨-, -, limit, hlimit, hpos, hcut⟩
      apply hcut
      simpa [shownText, hlimit, hpos.ne'] using h
    · intro h
      unfold shownText
      cases hlimit : e.maxChars with
      | none => rfl
      | some limit =>
        by_cases hzero : limit = 0
        · simp [hzero]
        · by_contra hcut
          refine h ⟨hkind, hdynamic, limit, hlimit, Nat.pos_of_ne_zero hzero, ?_⟩
          simpa [hzero] using hcut
  · have hliteral : e.isDynamic = false := Bool.not_eq_true _ ▸ hdynamic
    exact iff_of_true (shownText_of_literal hliteral _) fun h => hdynamic h.isDynamic

/-! ## The text of an element -/

/-- What stands in front of the field data of a text: its origin and its font. -/
def textOpening (e : Element) (offset : Float) : Except NumberError (List Command) := do
  let x ← pixelsToDots e.x
  let top ← millimetersToDots offset
  let below ← pixelsToDots e.y
  let size ← pointsToDots ((nonzero? e.fontSize).getD defaultFontPoints)
  return [.fieldOrigin x (top + below), .font (.ofDegrees e.rotation) size size]

/-- The commands of a field that shows a text. -/
def withFieldData (opening : List Command) (content : Text) : List Command :=
  opening ++ [.fieldData content, .fieldEnd]

theorem writtenLine_withFieldData (opening : List Command) (content : Text) :
    writtenLine (withFieldData opening content) =
      Text.join (opening.map Command.written) ++ "^FD" ++ (content ++ "^FS\n") := by
  simp only [writtenLine, withFieldData, List.map_append, List.map_cons, List.map_nil,
    Text.join_append, Text.join_cons, Text.join_nil, Command.written, Text.append_assoc]
  rfl

theorem writtenLine_withFieldData_inj {opening : List Command} {content content' : Text} :
    writtenLine (withFieldData opening content) = writtenLine (withFieldData opening content') ↔
      content = content' := by
  rw [writtenLine_withFieldData, writtenLine_withFieldData, Text.append_right_inj,
    Text.append_left_inj]

/-- A text that is not bound shows its content behind an opening that no mode changes. -/
theorem elementText_of_text (hkind : e.kind = .text) (h : boundSource? e = none) :
    elementText data mode e ⟨offset, row⟩ = (textOpening e offset).map fun opening =>
      writtenLine (withFieldData opening (shownText mode e (e.content.getD ""))) := by
  simp only [elementText, elementCommands, fieldCommands, hkind, textCommands, textOpening,
    contentOf_of_not_bound h, map_bind_eq, bind_assoc]
  rfl

/-- No other kind of element looks at the mode, once it has its content. -/
theorem elementText_of_ne_text (hkind : e.kind ≠ .text) (h : boundSource? e = none) :
    elementText data mode e ⟨offset, row⟩ = elementText data' mode' e ⟨offset, row'⟩ := by
  have hfield (x y : Int) :
      fieldCommands data mode e row x y = fieldCommands data' mode' e row' x y := by
    unfold fieldCommands
    cases hk : e.kind with
    | box => rfl
    | barcode => simp only [contentOf_of_not_bound h]
    | image => rfl
    | text => exact absurd hk hkind
  simp only [elementText, elementCommands, hfield]

theorem elementText_eq_iff (h : boundSource? e = none) :
    elementText data .sample e ⟨offset, row⟩ = elementText data' .template e ⟨offset, row'⟩ ↔
      ¬ CutOnSamplesOnly e ∨ ∃ err, elementText data .sample e ⟨offset, row⟩ = .error err := by
  by_cases hkind : e.kind = .text
  · rw [elementText_of_text hkind h, elementText_of_text hkind h]
    cases textOpening e offset with
    | error err => exact iff_of_true rfl (.inr ⟨err, rfl⟩)
    | ok opening =>
      simp only [Except.map, Except.ok.injEq, reduceCtorEq, exists_false, or_false]
      rw [writtenLine_withFieldData_inj, shownText_eq_iff hkind]
  · exact iff_of_true (elementText_of_ne_text hkind h) (.inl fun hcut => hkind hcut.kind)

/-- Two elements that differ in nothing but whether they are dynamic. -/
def limitedText (isDynamic : Bool) : Element :=
  { Editor.droppedElement "a" .text with
    x := 0.0
    y := 0.0
    content := some "Hello world"
    isDynamic
    maxChars := some 5 }

/-- The mode makes a difference to what is not bound only where it decides on cutting a dynamic
text. Without that the fragment of an element is the same in both modes, or there is none in
either. The data makes no difference in any mode, and a literal text longer than its limit is cut in
every one. -/
theorem elementText_of_unbound (h : boundSource? e = none) :
    (elementText data .sample e ⟨offset, row⟩ = elementText data' .template e ⟨offset, row'⟩ ↔
      ¬ CutOnSamplesOnly e ∨ ∃ err, elementText data .sample e ⟨offset, row⟩ = .error err) ∧
    (∀ mode, elementText data mode e ⟨offset, row⟩ = elementText data' mode e ⟨offset, row'⟩) ∧
    ∀ limit, e.kind = .text → e.isDynamic = false → e.maxChars = some limit → 0 < limit →
      limit < (e.content.getD "").length →
      ∀ mode, elementText data mode e ⟨offset, row⟩ = (textOpening e offset).map fun opening =>
        writtenLine (withFieldData opening
          (Text.ofPoints ((e.content.getD "").points.take limit) ++ ellipsis)) := by
  have hcontent (mode : Mode) : data.contentOf e mode row = data'.contentOf e mode row' := by
    rw [contentOf_of_not_bound h, contentOf_of_not_bound h]
  refine ⟨elementText_eq_iff h, fun mode => elementText_congr (hcontent mode), ?_⟩
  intro limit hkind hliteral hlimit hpos hlong mode
  rw [elementText_of_text hkind h, shownText_of_lt hliteral hlimit hpos hlong]

theorem limitedText_cut_in_modes :
    boundSource? (limitedText true) = none ∧ boundSource? (limitedText false) = none ∧
      elementText .standard .sample (limitedText true) ⟨0.0, none⟩ ≠
        elementText .standard .template (limitedText true) ⟨0.0, none⟩ ∧
      ∀ mode, elementText .standard mode (limitedText false) ⟨0.0, none⟩ =
        .ok "^FO0,0^A0N,34,34^FDHello...^FS\n" := by
  refine ⟨rfl, rfl, ?_, ?_⟩
  · intro hsame
    obtain hnot | ⟨err, herr⟩ := (elementText_of_unbound rfl).1.1 hsame
    · exact hnot ⟨rfl, rfl, 5, rfl, by decide, by decide⟩
    · have hok : (elementText .standard .sample (limitedText true) ⟨0.0, none⟩).isOk := by
        decide +kernel
      rw [herr] at hok
      cases hok
  · intro mode
    have hcut := (@elementText_of_unbound .standard .standard (limitedText false) none none 0.0
      rfl).2.2 5 rfl rfl rfl (by decide) (by decide) mode
    rw [hcut]
    decide +kernel

/-- A dynamic text without a data source is cut on samples, and not for the printer. -/
theorem limitedText_cut_on_samples_only :
    boundSource? (limitedText true) = none ∧
      elementText .standard .sample (limitedText true) ⟨0.0, none⟩ =
        .ok "^FO0,0^A0N,34,34^FDHello...^FS\n" ∧
      elementText .standard .template (limitedText true) ⟨0.0, none⟩ =
        .ok "^FO0,0^A0N,34,34^FDHello world^FS\n" := by
  refine ⟨rfl, ?_, ?_⟩
  · decide +kernel
  · decide +kernel

end Zpl
end ThermalLabel
