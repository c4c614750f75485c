import ThermalLabel.Proofs.Editor.Accepted
import ThermalLabel.Proofs.Editor.Snapshots
import ThermalLabel.Proofs.Label.Elements
import ThermalLabel.Proofs.Label.RoundTrip
import ThermalLabel.Proofs.Number.Order
/-!
# Sessions of well-formed labels

Heights and the width are held within their bounds whatever number a client asks for, and what an
edit leaves behind is an element that a document could hold: a changed element is read again, a
dropped one has no picture, a moved one keeps the picture that it had. So a session that begins with
a well-formed label holds no other, and its zoom stays where a distance can be divided by it.
-/

namespace ThermalLabel

/-- Some document holds the element. -/
def Element.IsRead (e : Element) : Prop := ∃ origin document, Element.read origin document = .ok e

theorem Element.onePicture_of_isRead {e : Element} (h : e.IsRead) :
    e.hasTwoImageSources = false := by
  obtain ⟨origin, document, hread⟩ := h
  exact onePicture_of_read hread

/-- The counts of an element. They are natural numbers, as a document with a negative one is
refused. -/
structure Element.CountsNotNegative (e : Element) : Prop where
  maxChars : ∀ n ∈ e.maxChars, 0 ≤ (n : Int)
  totalBytes : ∀ b ∈ e.bitmap, 0 ≤ (b.totalBytes : Int)
  bytesPerRow : ∀ b ∈ e.bitmap, 0 ≤ (b.bytesPerRow : Int)

theorem Element.countsNotNegative (e : Element) : e.CountsNotNegative :=
  ⟨fun _ _ => Int.natCast_nonneg _, fun _ _ => Int.natCast_nonneg _,
    fun _ _ => Int.natCast_nonneg _⟩

namespace Label

/-- Some document holds the label. -/
def IsRead (label : Label) : Prop := ∃ origin document, Label.read origin document = .ok label

def HeightInRange (height : Float) : Prop := 1.0 ≤ height ∧ height ≤ 500.0

def WidthInRange (width : Float) : Prop := 10.0 ≤ width ∧ width ≤ 104.0

structure SizesInRange (label : Label) : Prop where
  heights : ∀ name, HeightInRange (label.part name).height
  canvasWidth : WidthInRange label.canvasWidth

structure WellFormed (label : Label) : Prop where
  sizes : label.SizesInRange
  onePictureEach : label.OnePictureEach
  countsNotNegative : ∀ name, ∀ e ∈ (label.part name).elements, e.CountsNotNegative
  readsBack : ∀ origin spelling, Label.read origin (label.toJson spelling) = .ok label

variable {label : Label}

theorem wellFormed_of_onePictureEach (hsizes : label.SizesInRange)
    (hpictures : label.OnePictureEach) : label.WellFormed :=
  ⟨hsizes, hpictures, fun _ e _ => e.countsNotNegative,
    fun origin spelling => read_toJson origin spelling hpictures⟩

theorem IsRead.wellFormed (h : label.IsRead) (hsizes : label.SizesInRange) : label.WellFormed := by
  obtain ⟨origin, document, hread⟩ := h
  exact wellFormed_of_onePictureEach hsizes (onePictureEach_of_read hread)

/-- A section may change if its height stays in bounds and its new elements have one picture. -/
theorem WellFormed.modifyPart (h : label.WellFormed) (name : SectionName)
    (f : LabelSection → LabelSection)
    (hheight : HeightInRange (f (label.part name)).height)
    (helements : ∀ e ∈ (f (label.part name)).elements,
      e ∈ (label.part name).elements ∨ e.hasTwoImageSources = false) :
    (label.modifyPart name f).WellFormed := by
  apply wellFormed_of_onePictureEach
  · constructor
    · intro n
      rw [part_modifyPart]
      by_cases hn : n = name
      · rw [if_pos hn]
        exact hheight
      · rw [if_neg hn]
        exact h.sizes.heights n
    · rw [Label.modifyPart, canvasWidth_setPart]
      exact h.sizes.canvasWidth
  · exact forall_elements_modifyPart h.onePictureEach name f helements

theorem WellFormed.push (h : label.WellFormed) (name : SectionName) {e : Element}
    (he : e.hasTwoImageSources = false) : (label.modifyPart name (·.push e)).WellFormed := by
  refine h.modifyPart name (·.push e) (h.sizes.heights name) ?_
  intro new hnew
  rcases LabelSection.mem_elements_push.1 hnew with hold | rfl
  · exact Or.inl hold
  · exact Or.inr he

theorem WellFormed.without (h : label.WellFormed) (name : SectionName) (id : Text) :
    (label.modifyPart name (·.without id)).WellFormed := by
  refine h.modifyPart name (·.without id) (h.sizes.heights name) ?_
  intro e he
  exact Or.inl (LabelSection.mem_elements_without he)

theorem WellFormed.replace (h : label.WellFormed) (name : SectionName) (id : Text)
    {new : Element} (hnew : new.hasTwoImageSources = false) :
    (label.modifyPart name (·.replace id new)).WellFormed := by
  refine h.modifyPart name (·.replace id new) (h.sizes.heights name) ?_
  intro e he
  rcases LabelSection.mem_elements_replace he with hold | rfl
  · exact Or.inl hold
  · exact Or.inr hnew

theorem heightInRange_blank (name : SectionName) : HeightInRange (blank.part name).height := by
  unfold HeightInRange
  cases name <;> decide

theorem wellFormed_blank {width : Float} (hwidth : WidthInRange width) :
    WellFormed { blank with canvasWidth := width } := by
  refine wellFormed_of_onePictureEach ⟨heightInRange_blank, hwidth⟩ ?_
  intro name e he
  cases name <;> cases he

end Label

theorem clampZoom_mem (zoom : Float) : minZoom ≤ clampZoom zoom ∧ clampZoom zoom ≤ maxZoom :=
  atLeast_atMost_mem (by decide) (by decide) (by decide) zoom

/-- A distance on the screen is never divided by zero. -/
theorem clampZoom_ne_zero (zoom : Float) : (clampZoom zoom == 0.0) = false :=
  Binary64.beq_zero_of_le (by decide) (clampZoom_mem zoom).1

namespace Editor

open Schema

variable {label : Label} {place : SectionRef} {target : ElementRef} {r : Edited}

theorem wellFormed_addElement {e : Element} (hlabel : label.WellFormed)
    (he : e.hasTwoImageSources = false) (h : addElement label place e = .ok r) :
    r.label.WellFormed := by
  obtain ⟨-, name, -, rfl⟩ := addElement_eq_ok_iff.1 h
  exact hlabel.push name he

theorem wellFormed_updateElement {changes : List (String × Json)} (hlabel : label.WellFormed)
    (h : updateElement label place target changes = .ok r) : r.label.WellFormed := by
  obtain ⟨name, e, new, -, -, -, -, hnew, rfl⟩ := updateElement_eq_ok_iff.1 h
  exact hlabel.replace name e.id (Element.ofMembers_eq_ok_iff.1 hnew).2

theorem wellFormed_removeElement (hlabel : label.WellFormed)
    (h : removeElement label place target = .ok r) : r.label.WellFormed := by
  obtain ⟨name, e, -, -, -, rfl⟩ := removeElement_eq_ok_iff.1 h
  exact hlabel.without name e.id

/-- Between sections a moved element is not read again, but its picture is the one it had. -/
theorem wellFormed_moveElement {zoom : Float} {event : ElementMove} (hlabel : label.WellFormed)
    (h : moveElement zoom label event = .ok r) : r.label.WellFormed := by
  obtain ⟨e, x, -, hfind, -, hcases⟩ := moveElement_eq_ok_iff.1 h
  rcases hcases with ⟨-, y, -, hupdate⟩ | ⟨-, rfl⟩
  · exact wellFormed_updateElement hlabel hupdate
  · have he := hlabel.onePictureEach event.source e (LabelSection.mem_of_find? hfind)
    exact (hlabel.without event.source e.id).push event.target he

/-- An accepted edit keeps a label well-formed, if an element or a label that it brings in is so
itself. -/
theorem wellFormed_apply {zoom : Float} {edit : Edit} (hlabel : label.WellFormed)
    (hadded : ∀ place e, edit = .add place e → e.hasTwoImageSources = false)
    (htemplate : ∀ new, edit = .setTemplate new → new.WellFormed)
    (h : edit.apply zoom label = .ok r) : r.label.WellFormed := by
  cases edit with
  | add place e => exact wellFormed_addElement hlabel (hadded place e rfl) h
  | update place target changes =>
    exact wellFormed_updateElement hlabel (apply_update_eq_ok_iff.1 h).2
  | remove place target => exact wellFormed_removeElement hlabel h
  | setImageKey place target key => exact wellFormed_updateElement hlabel h
  | setImage place target image =>
    obtain ⟨bitmap, -, hupdate⟩ := bind_eq_ok_iff.1 h
    exact wellFormed_updateElement hlabel hupdate
  | setSectionHeight place height =>
    obtain ⟨name, -, hr⟩ := bind_eq_ok_iff.1 h
    cases hr
    have hheight :
        Label.HeightInRange (atLeast minSectionHeight (atMost maxSectionHeight height)) :=
      atLeast_atMost_mem (by decide) (by decide) (by decide) height
    exact hlabel.modifyPart name ({ · with height := _ }) hheight fun e he => Or.inl he
  | setCanvasWidth width =>
    cases h
    have hwidth : Label.WidthInRange (atLeast minCanvasWidth (atMost maxCanvasWidth width)) :=
      atLeast_atMost_mem (by decide) (by decide) (by decide) width
    exact Label.wellFormed_of_onePictureEach ⟨hlabel.sizes.heights, hwidth⟩ hlabel.onePictureEach
  | clear =>
    cases h
    exact Label.wellFormed_blank hlabel.sizes.canvasWidth
  | setTemplate new =>
    cases h
    exact htemplate new rfl
  | dropTool event freshId =>
    obtain ⟨-, rfl⟩ := apply_dropTool_eq_ok_iff.1 h
    exact hlabel.push event.target rfl
  | moveElement event => exact wellFormed_moveElement hlabel h

namespace Session

def ZoomInRange (s : Session) : Prop := 0.25 ≤ s.zoom ∧ s.zoom ≤ 3.0

theorem zoomInRange_start (label : Label) (limit : Int) : (start label limit).ZoomInRange := by
  have hdefault : 0.25 ≤ defaultZoom ∧ defaultZoom ≤ 3.0 := by decide
  exact hdefault

theorem zoomInRange_step {s : Session} (hs : s.ZoomInRange) (op : Operation) :
    (s.step op).1.ZoomInRange := by
  cases op with
  | edit e =>
    cases happly : e.apply s.zoom s.label with
    | ok r =>
      have hzoom := ignoresSelection_zoom.accept s e r
      simp only [step, perform_eq, happly]
      rw [ZoomInRange, hzoom]
      exact hs
    | error err =>
      simp only [step, perform_eq, happly]
      exact hs
  | select target place => rcases place with _ | _ | _ <;> exact hs
  | setZoom zoom => exact clampZoom_mem zoom
  | undo =>
    simp only [step]
    cases h : s.undo? with
    | none => exact hs
    | some next =>
      have hzoom : next.zoom = s.zoom := eq_of_undo? h ignoresSelection_zoom fun _ _ _ _ => rfl
      rw [ZoomInRange, hzoom]
      exact hs
  | redo =>
    simp only [step]
    cases h : s.redo? with
    | none => exact hs
    | some next =>
      have hzoom : next.zoom = s.zoom := eq_of_redo? h ignoresSelection_zoom fun _ _ _ _ => rfl
      rw [ZoomInRange, hzoom]
      exact hs

theorem zoomInRange_run {s : Session} (hs : s.ZoomInRange) (ops : List Operation) :
    (s.run ops).ZoomInRange := by
  induction ops generalizing s with
  | nil => exact hs
  | cons op ops ih => exact ih (zoomInRange_step hs op)

end Session

/-- A session that begins with a label of a document, its sizes in range, holds only well-formed
labels: the current one, and those that undoing and redoing bring back. Templates are such labels
themselves, and elements that are added come from documents; everything else that a client hands in
is arbitrary. -/
theorem run_keeps_labels_wellFormed (label : Label) (limit : Int) (ops : List Operation)
    (hlabel : label.IsRead ∧ label.SizesInRange)
    (hadded : ∀ place e, .edit (.add place e) ∈ ops → e.IsRead)
    (htemplates : ∀ new, .edit (.setTemplate new) ∈ ops → new.IsRead ∧ new.SizesInRange) :
    (∀ l ∈ ((Session.start label limit).run ops).snapshots, l.WellFormed) ∧
      ((Session.start label limit).run ops).ZoomInRange ∧
      (clampZoom ((Session.start label limit).run ops).zoom == 0.0) = false := by
  have hzoom : (Session.start label limit).ZoomInRange := Session.zoomInRange_start label limit
  refine ⟨?_, Session.zoomInRange_run hzoom ops, clampZoom_ne_zero _⟩
  apply Session.forall_snapshots_run (P := Label.WellFormed) ops
  · rw [Session.forall_snapshots]
    exact ⟨hlabel.1.wellFormed hlabel.2, fun _ h => absurd h List.not_mem_nil,
      fun _ h => absurd h List.not_mem_nil⟩
  · intro edit hedit zoom before r hbefore happly
    apply wellFormed_apply hbefore _ _ happly
    · intro place e he
      exact Element.onePicture_of_isRead (hadded place e (he ▸ hedit))
    · intro new hnew
      obtain ⟨hread, hsizes⟩ := htemplates new (hnew ▸ hedit)
      exact hread.wellFormed hsizes

/-- Numbers that are none or infinite, a picture in the place of another, and a move. -/
def roughUse : List Operation :=
  [.setZoom (0.0 / 0.0), .edit (.setSectionHeight (.ok .header) (0.0 / 0.0)),
    .edit (.setCanvasWidth (-1.0 / 0.0)), .edit (.add (.ok .header) (droppedElement "a" .image)),
    .edit (.setImageKey (.ok .header) (.id "a") (.str "R:LOGO.GRF")),
    .edit (.setImage (.ok .header) (.id "a") ⟨"80", 1, 1, 1, 1, "data:,"⟩),
    .edit (.moveElement ⟨"a", .header, .footer, 0.0, 0.0⟩), .edit (.setTemplate Label.blank), .undo]

theorem roughUse_keeps_labels_wellFormed :
    (Label.blank.IsRead ∧ Label.blank.SizesInRange) ∧ (droppedElement "a" .image).IsRead ∧
      (∀ l ∈ ((Session.start Label.blank 4).run roughUse).snapshots, l.WellFormed) ∧
      ((Session.start Label.blank 4).run roughUse).ZoomInRange ∧
      (clampZoom ((Session.start Label.blank 4).run roughUse).zoom == 0.0) = false := by
  have hblank : Label.blank.IsRead ∧ Label.blank.SizesInRange := by
    refine ⟨⟨.value, .obj [], rfl⟩, Label.heightInRange_blank, ?_⟩
    unfold Label.WidthInRange
    decide
  have hadded : (droppedElement "a" .image).IsRead :=
    ⟨.value, _, Element.read_toJson .value .joined rfl⟩
  refine ⟨hblank, hadded, run_keeps_labels_wellFormed Label.blank 4 roughUse hblank ?_ ?_⟩
  · intro place e he
    simp only [roughUse, List.mem_cons, Operation.edit.injEq, Edit.add.injEq, reduceCtorEq,
      false_or, or_false, List.not_mem_nil] at he
    rw [he.2]
    exact hadded
  · intro new hnew
    simp only [roughUse, List.mem_cons, Operation.edit.injEq, Edit.setTemplate.injEq, reduceCtorEq,
      false_or, or_false, List.not_mem_nil] at hnew
    rw [hnew]
    exact hblank

end Editor
end ThermalLabel
