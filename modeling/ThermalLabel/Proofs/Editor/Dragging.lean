import ThermalLabel.Proofs.Editor.AttachedImage
import ThermalLabel.Proofs.Editor.Grid
import ThermalLabel.Proofs.Editor.Refusals
/-!
# Dragging elements

An element that is dragged ends on the grid, in both directions within its section and at the top of
another one. Dragged over no distance it stays where it is, however often.
-/

namespace ThermalLabel

open Schema Binary64

namespace Editor

variable {zoom : Float} {label : Label} {event : ElementMove} {e : Element} {x y : Int}

/-- An element at another place. -/
def placedAt (e : Element) (x y : Float) : Element := { e with x := x, y := y }

theorem changed_place (hpicture : e.hasTwoImageSources = false) (hx : x.natAbs < 2 ^ 256)
    (hy : y.natAbs < 2 ^ 256) :
    changed e [("x", .int x), ("y", .int y)] =
      .ok (placedAt e (Float.ofInt x) (Float.ofInt y)) := by
  obtain ⟨hid, hkind, -, -, hrest⟩ :=
    Element.fieldsOf_eq_ok_iff.1 (Element.fieldsOf_toMembers .value .underscored e)
  refine Element.ofMembers_eq_ok_iff.2 ⟨Element.fieldsOf_eq_ok_iff.2 ?_, hpicture⟩
  exact ⟨hid, hkind, withDefault_of_find? rfl (readFloat_int hx),
    withDefault_of_find? rfl (readFloat_int hy), hrest⟩

theorem moveElement_within (hplace : event.source = event.target)
    (hfound : (label.part event.source).find? event.elementId = some e)
    (hpicture : e.hasTwoImageSources = false) (hx : draggedTo zoom e.x event.deltaX = .ok x)
    (hy : draggedTo zoom e.y event.deltaY = .ok y) (hx' : x ∈ Set.Icc 0 (2 ^ 53))
    (hy' : y ∈ Set.Icc 0 (2 ^ 53)) :
    moveElement zoom label event = .ok ⟨.updateElement,
      label.modifyPart event.source (·.replace e.id (placedAt e (Float.ofInt x) (Float.ofInt y))),
      some (placedAt e (Float.ofInt x) (Float.ofInt y))⟩ := by
  have hid := LabelSection.id_of_find? hfound
  rw [← hid] at hfound
  have htaken : takenId? label e [("x", .int x), ("y", .int y)] = none :=
    takenId?_of_not_mem (by simp)
  have hsmall {n : Int} (hn : n ∈ Set.Icc 0 (2 ^ 53)) : n.natAbs < 2 ^ 256 := by
    obtain ⟨hlow, hhigh⟩ := hn
    omega
  have hchanged := changed_place hpicture (hsmall hx') (hsmall hy')
  refine moveElement_eq_ok_iff.2 ⟨e, x, hid.symm, hfound, hx, .inl ⟨hplace, y, hy, ?_⟩⟩
  exact updateElement_eq_ok_iff.2 ⟨event.source, e, _, rfl, rfl, hfound, htaken, hchanged, rfl⟩

theorem moveElement_across (hplace : event.source ≠ event.target)
    (hfound : (label.part event.source).find? event.elementId = some e)
    (hx : draggedTo zoom e.x event.deltaX = .ok x) :
    moveElement zoom label event = .ok ⟨.moveElement,
      (label.modifyPart event.source (·.without e.id)).modifyPart event.target
        (·.push (placedAt e (Float.ofInt x) dropPosition)),
      some (placedAt e (Float.ofInt x) dropPosition)⟩ := by
  have hid := LabelSection.id_of_find? hfound
  rw [← hid] at hfound
  exact moveElement_eq_ok_iff.2 ⟨e, x, hid.symm, hfound, hx, .inr ⟨hplace, rfl⟩⟩

theorem step_moveElement {s : Session} {r : Edited} {new : Element}
    (h : moveElement s.zoom s.label event = .ok r) (hnew : r.element = some new) :
    ∃ next, s.step (.edit (.moveElement event)) = (next, .ok (.element new)) ∧
      next.label = r.label ∧ next.zoom = s.zoom := by
  have hstep : s.step (.edit (.moveElement event)) = _ := Session.step_accepted h
  rw [hnew] at hstep
  exact ⟨_, hstep, Session.ignoresSelection_label.accept _ _ _,
    Session.ignoresSelection_zoom.accept _ _ _⟩

/-! ## Elements that stay where they are -/

/-- A label with an element left where it was, though a zero may have lost its sign. -/
def LeavesInPlace (label : Label) (place : SectionName) (e : Element) (current : Label) : Prop :=
  ∃ x y, LeftAs e.x x ∧ LeftAs e.y y ∧
    current = label.modifyPart place (·.replace e.id (placedAt e x y))

/-- An element that is dragged over no distance from line to line. -/
structure StillDrag (label : Label) (event : ElementMove) (e : Element) : Prop where
  found : (label.part event.source).find? event.elementId = some e
  onePicture : e.hasTwoImageSources = false
  within : event.source = event.target
  deltaX : (event.deltaX == 0.0) = true
  deltaY : (event.deltaY == 0.0) = true
  gridX : OnGrid e.x
  gridY : OnGrid e.y
  sizeX : |valueOf e.x| < 2 ^ 52
  sizeY : |valueOf e.y| < 2 ^ 52

theorem StillDrag.step (h : StillDrag label event e) {s : Session}
    (hs : LeavesInPlace label event.source e s.label) :
    LeavesInPlace label event.source e (s.step (.edit (.moveElement event))).1.label := by
  obtain ⟨x, y, hx, hy, hlabel⟩ := hs
  have hid := LabelSection.id_of_find? h.found
  have hfound : (s.label.part event.source).find? event.elementId = some (placedAt e x y) := by
    rw [hlabel, Label.part_modifyPart, if_pos rfl, hid]
    exact LabelSection.find?_replace h.found hid
  obtain ⟨m, hm, hdragX, hx'⟩ := exists_draggedTo_still s.zoom h.gridX h.sizeX hx h.deltaX
  obtain ⟨n, hn, hdragY, hy'⟩ := exists_draggedTo_still s.zoom h.gridY h.sizeY hy h.deltaY
  obtain ⟨next, hstep, hnext, -⟩ := step_moveElement
    (moveElement_within h.within hfound h.onePicture hdragX hdragY hm hn) rfl
  refine ⟨Float.ofInt m, Float.ofInt n, hx', hy', ?_⟩
  rw [hstep]
  change next.label = _
  rw [hnext]
  dsimp only
  rw [hlabel, Label.modifyPart_modifyPart]
  congr 1
  funext part
  exact LabelSection.replace_replace rfl

theorem StillDrag.run (h : StillDrag label event e) (k : Nat) {s : Session}
    (hs : LeavesInPlace label event.source e s.label) :
    LeavesInPlace label event.source e
      (s.run (List.replicate k (.edit (.moveElement event)))).label := by
  induction k generalizing s with
  | zero => exact hs
  | succ k ih => exact ih (h.step hs)

/-- Signs of zeros apart, nothing moves at all. -/
theorem LeavesInPlace.eq {current : Label} {place : SectionName} {id : Text}
    (h : LeavesInPlace label place e current) (hids : label.DistinctIds)
    (hfound : (label.part place).find? id = some e) (hx : e.x ≠ -0.0) (hy : e.y ≠ -0.0) :
    current = label := by
  obtain ⟨x, y, hx', hy', rfl⟩ := h
  obtain rfl := hx'.eq hx
  obtain rfl := hy'.eq hy
  apply Label.modifyPart_eq_self
  rw [LabelSection.id_of_find? hfound]
  exact LabelSection.replace_self (((Label.distinctIds_iff label).1 hids).1 place) hfound

/-! ## Where a drag ends -/

/-- A coordinate that is the line of the grid nearest to a number, or to zero instead of a negative
number. -/
def LandsOn (reached c : Float) : Prop :=
  ∃ n : ℤ, c = Float.ofInt n ∧ valueOf c = n ∧ NearestLine (max 0 (valueOf reached)) n

theorem exists_draggedTo_landsOn {start distance : Float}
    (h : (start + distance / clampZoom zoom).abs < wholeFrom) :
    ∃ n ∈ Set.Icc 0 (2 ^ 53), draggedTo (clampZoom zoom) start distance = .ok n ∧
      LandsOn (start + distance / clampZoom zoom) (Float.ofInt n) := by
  have hscreen : screenToLogical distance (clampZoom zoom) = distance / clampZoom zoom := by
    rw [screenToLogical, clampZoom_clampZoom]
  rw [← hscreen] at h ⊢
  obtain ⟨hfinite, hsize⟩ := isFinite_of_abs_lt h
  obtain ⟨n, hn, hline, hle⟩ := exists_draggedTo hfinite hsize
  have hmem : n ∈ Set.Icc 0 (2 ^ 53) := ⟨hline.nonneg, hle⟩
  exact ⟨n, hmem, hn, n, rfl, valueOf_ofInt hmem, hline⟩

theorem step_within {s : Session} (hplace : event.source = event.target)
    (hfound : (s.label.part event.source).find? event.elementId = some e)
    (hpicture : e.hasTwoImageSources = false)
    (hx : (e.x + event.deltaX / clampZoom zoom).abs < wholeFrom)
    (hy : (e.y + event.deltaY / clampZoom zoom).abs < wholeFrom) :
    ∃ next new, (s.setZoom zoom).step (.edit (.moveElement event)) = (next, .ok (.element new)) ∧
      (next.label.part event.target).find? event.elementId = some new ∧
      LandsOn (e.x + event.deltaX / clampZoom zoom) new.x ∧
      LandsOn (e.y + event.deltaY / clampZoom zoom) new.y := by
  have hid := LabelSection.id_of_find? hfound
  obtain ⟨m, hm, hdragX, hlandsX⟩ := exists_draggedTo_landsOn hx
  obtain ⟨n, hn, hdragY, hlandsY⟩ := exists_draggedTo_landsOn hy
  obtain ⟨next, hstep, hnext, -⟩ := step_moveElement (s := s.setZoom zoom)
    (moveElement_within hplace hfound hpicture hdragX hdragY hm hn) rfl
  refine ⟨next, _, hstep, ?_, hlandsX, hlandsY⟩
  rw [hnext, ← hplace]
  change ((s.label.modifyPart event.source _).part event.source).find? _ = _
  rw [Label.part_modifyPart, if_pos rfl, hid]
  exact LabelSection.find?_replace hfound hid

theorem step_across {s : Session} (hids : s.label.DistinctIds)
    (hplace : event.source ≠ event.target)
    (hfound : (s.label.part event.source).find? event.elementId = some e)
    (hx : (e.x + event.deltaX / clampZoom zoom).abs < wholeFrom) :
    ∃ next new, (s.setZoom zoom).step (.edit (.moveElement event)) = (next, .ok (.element new)) ∧
      (next.label.part event.target).find? event.elementId = some new ∧
      LandsOn (e.x + event.deltaX / clampZoom zoom) new.x ∧ new.y = dropPosition := by
  have hid := LabelSection.id_of_find? hfound
  obtain ⟨m, -, hdragX, hlandsX⟩ := exists_draggedTo_landsOn hx
  obtain ⟨next, hstep, hnext, -⟩ := step_moveElement (s := s.setZoom zoom)
    (moveElement_across hplace hfound hdragX) rfl
  refine ⟨next, _, hstep, ?_, hlandsX, rfl⟩
  have hfree : e.id ∉ (s.label.part event.target).ids := by
    rw [hid]
    exact ((Label.distinctIds_iff _).1 hids).2 _ _ hplace _ (LabelSection.mem_ids_of_find? hfound)
  rw [hnext, ← hid]
  change (((s.label.modifyPart event.source _).modifyPart event.target _).part
    event.target).find? _ = _
  rw [Label.part_modifyPart, if_pos rfl, Label.part_modifyPart, if_neg (Ne.symm hplace)]
  exact LabelSection.find?_push_of_not_mem hfree

theorem StillDrag.leavesInPlace (h : StillDrag label event e) (hids : label.DistinctIds) :
    LeavesInPlace label event.source e label := by
  refine ⟨e.x, e.y, leftAs_refl h.gridX.finite, leftAs_refl h.gridY.finite, ?_⟩
  refine (Label.modifyPart_eq_self ?_).symm
  rw [LabelSection.id_of_find? h.found]
  exact LabelSection.replace_self (((Label.distinctIds_iff _).1 hids).1 _) h.found

theorem size_of_still {c distance : Float} (hc : OnGrid c) (hdistance : (distance == 0.0) = true)
    (h : (c + distance / clampZoom zoom).abs < wholeFrom) : |valueOf c| < 2 ^ 52 := by
  rw [← (add_screenToLogical zoom hc.finite hdistance).2]
  exact (isFinite_of_abs_lt h).2

/-- At any zoom an element ends on the grid. Within its section it does so in both directions, and
over no distance it stays where it is, however often it is dragged. In another section it ends at
the top. -/
theorem drag_ends_on_grid {s : Session} (hids : s.label.DistinctIds)
    (hpictures : s.label.OnePictureEach)
    (hfound : (s.label.part event.source).find? event.elementId = some e)
    (hx : (e.x + event.deltaX / clampZoom zoom).abs < wholeFrom)
    (hy : event.source = event.target → (e.y + event.deltaY / clampZoom zoom).abs < wholeFrom) :
    ∃ next new,
      (s.setZoom zoom).step (.edit (.moveElement event)) = (next, .ok (.element new)) ∧
      (next.label.part event.target).find? event.elementId = some new ∧
      LandsOn (e.x + event.deltaX / clampZoom zoom) new.x ∧
      (event.source = event.target → LandsOn (e.y + event.deltaY / clampZoom zoom) new.y) ∧
      (event.source ≠ event.target → new.y = dropPosition) ∧
      (event.source = event.target → (event.deltaX == 0.0) = true → (event.deltaY == 0.0) = true →
        OnGrid e.x → OnGrid e.y → ∀ k,
          let last := (s.setZoom zoom).run (List.replicate k (.edit (.moveElement event)))
          LeavesInPlace s.label event.source e last.label ∧
            (e.x ≠ -0.0 → e.y ≠ -0.0 → last.label = s.label)) := by
  have hpicture := hpictures event.source e (LabelSection.mem_of_find? hfound)
  by_cases hplace : event.source = event.target
  · obtain ⟨next, new, hstep, hnew, hlandsX, hlandsY⟩ :=
      step_within hplace hfound hpicture hx (hy hplace)
    refine ⟨next, new, hstep, hnew, hlandsX, fun _ => hlandsY, fun hne => absurd hplace hne, ?_⟩
    intro _ hdeltaX hdeltaY hgridX hgridY k
    have hdrag : StillDrag s.label event e := {
      found := hfound
      onePicture := hpicture
      within := hplace
      deltaX := hdeltaX
      deltaY := hdeltaY
      gridX := hgridX
      gridY := hgridY
      sizeX := size_of_still hgridX hdeltaX hx
      sizeY := size_of_still hgridY hdeltaY (hy hplace) }
    have hstart : LeavesInPlace s.label event.source e (s.setZoom zoom).label :=
      hdrag.leavesInPlace hids
    have hlast := hdrag.run k hstart
    exact ⟨hlast, fun hx hy => hlast.eq hids hfound hx hy⟩
  · obtain ⟨next, new, hstep, hnew, hlandsX, hdrop⟩ := step_across hids hplace hfound hx
    exact ⟨next, new, hstep, hnew, hlandsX, fun heq => absurd heq hplace, fun _ => hdrop,
      fun heq => absurd heq hplace⟩

theorem oneAbove_onePictureEach : oneAbove.label.OnePictureEach := by
  intro name e he
  cases name
  · obtain rfl := List.mem_singleton.1 he
    rfl
  · exact absurd he List.not_mem_nil
  · obtain rfl := List.mem_singleton.1 he
    rfl

/-- At a zoom that is no number the canvas is at its largest. From ten to the middle between two
lines the text goes to the second of them, and dragged over no distance it never leaves ten. -/
theorem oneAbove_dragged :
    (∃ next new,
      ((oneAbove.setZoom (0.0 / 0.0)).step
          (.edit (.moveElement ⟨"a", .header, .body, 45.0, -1.0 / 0.0⟩))) =
        (next, .ok (.element new)) ∧
      (next.label.part .body).find? "a" = some new ∧
      LandsOn (10.0 + 45.0 / clampZoom (0.0 / 0.0)) new.x ∧ new.y = dropPosition) ∧
    ∀ k, ((oneAbove.setZoom (0.0 / 0.0)).run
      (List.replicate k (.edit (.moveElement ⟨"a", .header, .header, 0.0, -0.0⟩)))).label =
        oneAbove.label := by
  have hids : oneAbove.label.DistinctIds := by decide
  constructor
  · obtain ⟨next, new, hstep, hfound, hx, -, hy, -⟩ :=
      @drag_ends_on_grid (0.0 / 0.0) ⟨"a", .header, .body, 45.0, -1.0 / 0.0⟩
        (droppedElement "a" .text) oneAbove hids oneAbove_onePictureEach rfl (by decide +kernel)
        (fun h => by cases h)
    exact ⟨next, new, hstep, hfound, hx, hy (by decide)⟩
  · intro k
    obtain ⟨-, -, -, -, -, -, -, hstill⟩ :=
      @drag_ends_on_grid (0.0 / 0.0) ⟨"a", .header, .header, 0.0, -0.0⟩
        (droppedElement "a" .text) oneAbove hids oneAbove_onePictureEach rfl (by decide +kernel)
        (fun _ => by decide +kernel)
    have hten : OnGrid dropPosition := ⟨by rfl, 1, valueOf_ten⟩
    have hsign : dropPosition ≠ -0.0 := by decide +kernel
    exact (hstill rfl rfl (by rfl) hten hten k).2 hsign hsign

end Editor
end ThermalLabel
