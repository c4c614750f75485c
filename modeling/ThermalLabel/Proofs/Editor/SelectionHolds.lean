import ThermalLabel.Proofs.Editor.DistinctIds
/-!
# When a selection holds

A selection holds if it is empty or names an element of the section selected with it. Removing the
element or the whole label gives it up. What strands it is a change of the id, a move to another
section, a selection refused half way, and a label brought back that no longer has the element in
that section, unless the id is nowhere on it and not empty.
-/

namespace ThermalLabel.Editor

open Schema

variable {label : Label} {place : SectionRef} {target : ElementRef} {r : Edited} {id : Text}
  {name : SectionName}

/-- Nothing is named, or an element that is in the section named with it. -/
def Selects (label : Label) (target : ElementRef) (place : Option SectionName) : Prop :=
  (target = .nothing ∧ place = none) ∨
    ∃ id name, target = .id id ∧ place = some name ∧ id ∈ (label.part name).ids

theorem selects_iff (label : Label) (id : Text) (name : SectionName) :
    Selects label (.id id) (some name) ↔ id ∈ (label.part name).ids := by
  constructor
  · rintro (⟨hnothing, -⟩ | ⟨_, _, hid, hname, hmem⟩)
    · cases hnothing
    · cases hid
      cases hname
      exact hmem
  · intro hmem
    exact Or.inr ⟨id, name, rfl, rfl, hmem⟩

/-! ## Ids under the edits -/

private theorem mem_ids_modifyPart (n : SectionName) {f : LabelSection → LabelSection}
    (h : id ∈ (label.part name).ids) (hf : name = n → id ∈ (f (label.part n)).ids) :
    id ∈ ((label.modifyPart n f).part name).ids := by
  rw [Label.part_modifyPart]
  by_cases hn : name = n
  · rw [if_pos hn]
    exact hf hn
  · rwa [if_neg hn]

private theorem mem_ids_push {e : Element} (n : SectionName) (h : id ∈ (label.part name).ids) :
    id ∈ ((label.modifyPart n (·.push e)).part name).ids := by
  apply mem_ids_modifyPart n h
  rintro rfl
  rw [LabelSection.ids_push]
  exact List.mem_append_left _ h

private theorem mem_ids_replace_iff {e new : Element} (n : SectionName)
    (h : id ∈ (label.part name).ids) :
    id ∈ ((label.modifyPart n (·.replace e.id new)).part name).ids ↔
      ¬ (name = n ∧ id = e.id ∧ new.id ≠ id) := by
  rw [Label.part_modifyPart]
  by_cases hn : name = n
  · subst hn
    rw [if_pos rfl, LabelSection.ids_replace, List.mem_map]
    constructor
    · rintro ⟨x, -, hx⟩ ⟨-, rfl, hnew⟩
      by_cases hxe : x = e.id
      · rw [if_pos hxe] at hx
        exact hnew hx
      · rw [if_neg hxe] at hx
        exact hxe hx
    · intro hkept
      by_cases hide : id = e.id
      · refine ⟨id, h, ?_⟩
        rw [if_pos hide]
        by_contra hnew
        exact hkept ⟨rfl, hide, hnew⟩
      · exact ⟨id, h, if_neg hide⟩
  · rw [if_neg hn]
    exact ⟨fun _ hrenamed => hn hrenamed.1, fun _ => h⟩

private theorem mem_ids_without_iff (n : SectionName) (other : Text)
    (h : id ∈ (label.part name).ids) :
    id ∈ ((label.modifyPart n (·.without other)).part name).ids ↔ ¬ (name = n ∧ id = other) := by
  rw [Label.part_modifyPart]
  by_cases hn : name = n
  · subst hn
    simp [h]
  · simp [hn, h]

/-- Members written over an element do not change its id unless they are about it. -/
theorem id_of_changed_of_lookup {e new : Element} {changes : List (String × Json)}
    (hchanges : Json.member? "id" (changedMembers e changes) = some (.str e.id))
    (h : changed e changes = .ok new) : new.id = e.id := by
  have hnew := Element.member_id_of_ofMembers h
  rw [hchanges] at hnew
  exact (Option.some.inj hnew).symm

theorem id_of_moved {e new : Element} {x y : Json}
    (h : changed e [("x", x), ("y", y)] = .ok new) : new.id = e.id :=
  id_of_changed_of_lookup rfl h

theorem id_of_imageKeyChanges {e new : Element} {key : Json}
    (h : changed e (imageKeyChanges key) = .ok new) : new.id = e.id := by
  apply id_of_changed_of_lookup _ h
  unfold imageKeyChanges
  cases key.isTruthy <;> rfl

theorem id_of_imageChanges {e new : Element} {image : ImageEncoding} {bitmap : Bitmap}
    (h : changed e (imageChanges image bitmap) = .ok new) : new.id = e.id :=
  id_of_changed_of_lookup rfl h

/-- An update that leaves the id of its element alone leaves all ids of the label alone. -/
theorem mem_ids_updateElement {changes : List (String × Json)}
    (hid : ∀ e new, changed e changes = .ok new → new.id = e.id)
    (h : updateElement label place target changes = .ok r) (hmem : id ∈ (label.part name).ids) :
    id ∈ (r.label.part name).ids := by
  obtain ⟨n, e, new, -, -, -, -, hnew, rfl⟩ := updateElement_eq_ok_iff.1 h
  rw [mem_ids_replace_iff n hmem]
  rintro ⟨-, rfl, hne⟩
  exact hne (hid e new hnew)

namespace Session

variable {s next : Session}

/-- What is selected is in the section that is selected, if anything is selected. -/
def SelectionHolds (s : Session) : Prop := Selects s.label s.selectedElement s.selectedSection

/-- An element is selected that a label does not have in the selected section, though it has the
id in another one or the id is empty. -/
def Overlooks (s : Session) (label : Label) : Prop :=
  ∃ id name, s.selectedElement = .id id ∧ s.selectedSection = some name ∧
    id ∉ (label.part name).ids ∧ (id = "" ∨ ∃ n, id ∈ (label.part n).ids)

/-- The operations after which a selection does not hold any more: the selected element gets
another id, goes to another section, or is overlooked on a label that is brought back; or an
element is selected for a section that there is not. -/
def Strands (s : Session) : Operation → Prop
  | .edit (.update place target changes) =>
    ∃ id name new, s.selectedElement = .id id ∧ s.selectedSection = some name ∧
      target = .id id ∧ place = .ok name ∧ new.id ≠ id ∧
      (s.step (.edit (.update place target changes))).2 = .ok (.element new)
  | .edit (.moveElement event) =>
    s.selectedElement = .id event.elementId ∧ s.selectedSection = some event.source ∧
      event.source ≠ event.target ∧
      ∃ moved, (s.step (.edit (.moveElement event))).2 = .ok (.element moved)
  | .edit _ => False
  | .select target place =>
    (∃ cause, place = some (.error cause)) ∧ ¬ Selects s.label target s.selectedSection
  | .setZoom _ => False
  | .undo => ∃ entry past, s.past = entry :: past ∧ s.Overlooks entry.label
  | .redo => ∃ entry future, s.future = entry :: future ∧ s.Overlooks entry.label

theorem step_accepted {edit : Edit} (h : edit.apply s.zoom s.label = .ok r) :
    s.step (.edit edit) = (s.accept edit r, .ok (.ofElement r.element)) := by
  simp only [step, perform_eq, h]
  rfl

theorem step_refused {edit : Edit} {err : EditError}
    (h : edit.apply s.zoom s.label = .error err) :
    s.step (.edit edit) = (s, .error err) := by
  simp only [step, perform_eq, h]
  rfl

theorem not_strands_of_refused {edit : Edit} {err : EditError}
    (h : edit.apply s.zoom s.label = .error err) : ¬ s.Strands (.edit edit) := by
  have hstep := step_refused h
  cases edit with
  | update place target changes =>
    rintro ⟨id, name, new, -, -, -, -, -, hnew⟩
    rw [hstep] at hnew
    cases hnew
  | moveElement event =>
    rintro ⟨-, -, -, moved, hmoved⟩
    rw [hstep] at hmoved
    cases hmoved
  | _ => exact id

theorem not_strands_of_nothing {edit : Edit} (h : s.selectedElement = .nothing) :
    ¬ s.Strands (.edit edit) := by
  cases edit with
  | update place target changes =>
    rintro ⟨id, name, new, hid, -⟩
    cases h.symm.trans hid
  | moveElement event =>
    rintro ⟨hid, -⟩
    cases h.symm.trans hid
  | _ => exact id

/-- An accepted update takes an id out of a section only by giving its element another one. -/
private theorem mem_ids_update_iff {changes : List (String × Json)}
    (helement : s.selectedElement = .id id) (hsection : s.selectedSection = some name)
    (hmem : id ∈ (s.label.part name).ids)
    (h : (Edit.update place target changes).apply s.zoom s.label = .ok r) :
    id ∈ (r.label.part name).ids ↔ ¬ s.Strands (.edit (.update place target changes)) := by
  have hstep := step_accepted h
  obtain ⟨-, hupdate⟩ := apply_update_eq_ok_iff.1 h
  obtain ⟨n, e, new, rfl, rfl, -, -, -, rfl⟩ := updateElement_eq_ok_iff.1 hupdate
  rw [mem_ids_replace_iff n hmem, not_iff_not]
  simp only [Strands, hstep, Outcome.ofElement, helement, hsection]
  constructor
  · rintro ⟨rfl, rfl, hne⟩
    exact ⟨e.id, name, new, rfl, rfl, rfl, rfl, hne, rfl⟩
  · rintro ⟨_, _, _, hid, hname, htarget, hplace, hne, hnew⟩
    cases hid
    cases hname
    cases htarget
    cases hplace
    cases hnew
    exact ⟨rfl, rfl, hne⟩

private theorem mem_ids_move_iff {event : ElementMove}
    (helement : s.selectedElement = .id id) (hsection : s.selectedSection = some name)
    (hmem : id ∈ (s.label.part name).ids)
    (h : (Edit.moveElement event).apply s.zoom s.label = .ok r) :
    id ∈ (r.label.part name).ids ↔ ¬ s.Strands (.edit (.moveElement event)) := by
  have hstep := step_accepted h
  obtain ⟨e, x, hid, -, -, hcases⟩ := moveElement_eq_ok_iff.1 h
  rcases hcases with ⟨hsame, y, -, hupdate⟩ | ⟨hother, rfl⟩
  · have hkept := mem_ids_updateElement (fun e new => id_of_moved) hupdate hmem
    refine ⟨fun _ hstrands => hstrands.2.2.1 hsame, fun _ => hkept⟩
  · simp only [Strands, hstep, Outcome.ofElement, helement, hsection, hid]
    have hwithout := mem_ids_without_iff event.source e.id hmem
    by_cases htarget : name = event.target
    · have hsource : name ≠ event.source := fun hsource => hother (hsource.symm.trans htarget)
      have hkept := hwithout.2 fun hgone => hsource hgone.1
      refine ⟨fun _ hstrands => hsource (Option.some.inj hstrands.2.1), fun _ => ?_⟩
      exact mem_ids_push event.target hkept
    · rw [Label.part_modifyPart, if_neg htarget, hwithout, not_iff_not]
      constructor
      · rintro ⟨rfl, rfl⟩
        exact ⟨rfl, rfl, hother, _, rfl⟩
      · rintro ⟨hid, hname, -⟩
        exact ⟨Option.some.inj hname, ElementRef.id.inj hid⟩

/-- An edit that does not give the selection up takes its id out of its section only where
`Strands` says so. -/
private theorem mem_ids_apply_iff {edit : Edit} (helement : s.selectedElement = .id id)
    (hsection : s.selectedSection = some name) (hmem : id ∈ (s.label.part name).ids)
    (hkept : deselectedBy s.selectedElement edit = false)
    (h : edit.apply s.zoom s.label = .ok r) :
    id ∈ (r.label.part name).ids ↔ ¬ s.Strands (.edit edit) := by
  cases edit with
  | update place target changes => exact mem_ids_update_iff helement hsection hmem h
  | moveElement event => exact mem_ids_move_iff helement hsection hmem h
  | add place e =>
    obtain ⟨-, n, -, rfl⟩ := addElement_eq_ok_iff.1 h
    exact iff_of_true (mem_ids_push n hmem) not_false
  | remove place target =>
    obtain ⟨n, e, -, rfl, -, rfl⟩ := removeElement_eq_ok_iff.1 h
    refine iff_of_true ((mem_ids_without_iff n e.id hmem).2 ?_) not_false
    rintro ⟨-, rfl⟩
    rw [helement] at hkept
    simp [deselectedBy, ElementRef.sameId] at hkept
  | setImageKey place target key =>
    exact iff_of_true (mem_ids_updateElement (fun e new => id_of_imageKeyChanges) h hmem) not_false
  | setImage place target image =>
    obtain ⟨bitmap, -, hupdate⟩ := bind_eq_ok_iff.1 h
    exact iff_of_true (mem_ids_updateElement (fun e new => id_of_imageChanges) hupdate hmem)
      not_false
  | setSectionHeight place height =>
    obtain ⟨n, -, hr⟩ := bind_eq_ok_iff.1 h
    cases hr
    refine iff_of_true (mem_ids_modifyPart n hmem ?_) not_false
    rintro rfl
    exact hmem
  | setCanvasWidth width =>
    cases h
    refine iff_of_true ?_ not_false
    cases name <;> exact hmem
  | clear => cases hkept
  | setTemplate new => cases hkept
  | dropTool event freshId =>
    obtain ⟨-, rfl⟩ := apply_dropTool_eq_ok_iff.1 h
    exact iff_of_true (mem_ids_push event.target hmem) not_false

theorem selectionHolds_edit_iff (hs : s.SelectionHolds) (edit : Edit) :
    (s.step (.edit edit)).1.SelectionHolds ↔ ¬ s.Strands (.edit edit) := by
  cases h : edit.apply s.zoom s.label with
  | error err =>
    rw [step_refused h]
    exact iff_of_true hs (not_strands_of_refused h)
  | ok r =>
    rw [step_accepted h]
    unfold accept
    cases hkept : deselectedBy s.selectedElement edit with
    | true =>
      refine iff_of_true (Or.inl ⟨rfl, rfl⟩) ?_
      cases edit with
      | update place target changes => cases hkept
      | moveElement event => cases hkept
      | _ => exact id
    | false =>
      rcases hs with ⟨hnothing, hsection⟩ | ⟨id, name, helement, hsection, hmem⟩
      · exact iff_of_true (Or.inl ⟨hnothing, hsection⟩) (not_strands_of_nothing hnothing)
      · rw [← mem_ids_apply_iff helement hsection hmem hkept h, ← selects_iff, ← helement,
          ← hsection]
        rfl

/-- A label brought back keeps or drops a selection that held before, unless it is overlooked. -/
theorem selectionHolds_dropStaleSelection_iff (hs : s.SelectionHolds) {label : Label}
    {past future : List Entry} :
    (dropStaleSelection { s with label, past, future }).SelectionHolds ↔ ¬ s.Overlooks label := by
  rcases hs with ⟨hnothing, hsection⟩ | ⟨id, name, helement, hsection, -⟩
  · have hstale : selectionIsStale { s with label, past, future } = false := by
      simp [selectionIsStale, hnothing, ElementRef.isPresent, ElementRef.nothing,
        ElementRef.toJson, Json.isTruthy]
    simp only [dropStaleSelection, hstale]
    refine iff_of_true (Or.inl ⟨hnothing, hsection⟩) ?_
    rintro ⟨id, name, helement, -⟩
    cases hnothing.symm.trans helement
  · have hstale : selectionIsStale { s with label, past, future } = true ↔
        id ≠ "" ∧ ∀ n, id ∉ (label.part n).ids := by
      simp [selectionIsStale, helement, ElementRef.isPresent, ElementRef.toJson, Json.isTruthy,
        Editor.find?, Label.find?_eq_none_iff]
    have hoverlooks : s.Overlooks label ↔
        id ∉ (label.part name).ids ∧ (id = "" ∨ ∃ n, id ∈ (label.part n).ids) := by
      constructor
      · rintro ⟨_, _, helement', hsection', h⟩
        cases helement.symm.trans helement'
        cases hsection.symm.trans hsection'
        exact h
      · intro h
        exact ⟨id, name, helement, hsection, h⟩
    rw [hoverlooks]
    by_cases h : selectionIsStale { s with label, past, future } = true
    · obtain ⟨hid, hnowhere⟩ := hstale.1 h
      rw [dropStaleSelection, if_pos h]
      refine iff_of_true (Or.inl ⟨rfl, rfl⟩) ?_
      rintro ⟨-, hempty | ⟨n, hn⟩⟩
      · exact hid hempty
      · exact hnowhere n hn
    · have hfound : id = "" ∨ ∃ n, id ∈ (label.part n).ids := by
        rw [hstale] at h
        by_contra hno
        rw [not_or, not_exists] at hno
        exact h hno
      rw [dropStaleSelection, if_neg h]
      simp only [SelectionHolds, helement, hsection, selects_iff, hfound, and_true, not_not]

theorem selectionHolds_undo_iff (hs : s.SelectionHolds) :
    (s.step .undo).1.SelectionHolds ↔ ¬ s.Strands .undo := by
  cases hpast : s.past with
  | nil =>
    simp only [step, undo?, hpast, Strands]
    refine iff_of_true hs ?_
    rintro ⟨entry, past, hcons, -⟩
    cases hcons
  | cons entry past =>
    simp only [step, undo?, hpast, Strands, selectionHolds_dropStaleSelection_iff hs,
      List.cons.injEq]
    rw [not_iff_not]
    constructor
    · intro h
      exact ⟨entry, past, ⟨rfl, rfl⟩, h⟩
    · rintro ⟨_, _, ⟨rfl, rfl⟩, h⟩
      exact h

theorem selectionHolds_redo_iff (hs : s.SelectionHolds) :
    (s.step .redo).1.SelectionHolds ↔ ¬ s.Strands .redo := by
  have hundo := selectionHolds_undo_iff (s := s.mirrored) hs
  have hredo : (s.step .redo).1.SelectionHolds ↔ (s.mirrored.step .undo).1.SelectionHolds := by
    simp only [step, redo?_eq]
    cases s.mirrored.undo? with
    | none => exact Iff.rfl
    | some next => exact Iff.rfl
  rw [hredo, hundo]
  exact Iff.rfl

/-- One step: a selection that holds is stranded exactly by the operations of `Strands`, as long
as a selection with a section that there is names an element in it. -/
theorem selectionHolds_step_iff (hs : s.SelectionHolds) {op : Operation}
    (hselect : ∀ target place, op = .select target (place.map Except.ok) →
      Selects s.label target place) :
    (s.step op).1.SelectionHolds ↔ ¬ s.Strands op := by
  cases op with
  | edit edit => exact selectionHolds_edit_iff hs edit
  | setZoom zoom => exact iff_of_true hs not_false
  | undo => exact selectionHolds_undo_iff hs
  | redo => exact selectionHolds_redo_iff hs
  | select target place =>
    rcases place with _ | cause | name
    · refine iff_of_true (hselect target none rfl) ?_
      rintro ⟨⟨cause, hcause⟩, -⟩
      cases hcause
    · simp only [Strands]
      rw [not_and_not_right]
      exact ⟨fun h _ => h, fun h => h ⟨cause, rfl⟩⟩
    · refine iff_of_true (hselect target (some name) rfl) ?_
      rintro ⟨⟨cause, hcause⟩, -⟩
      cases hcause

theorem run_concat (s : Session) (before : List Operation) (op : Operation) :
    s.run (before ++ [op]) = ((s.run before).step op).1 := by
  simp only [run, List.foldl_append, List.foldl_cons, List.foldl_nil]

end Session

/-- From no selection on, if what is selected in a section is in it at that time, the selection
holds after every operation exactly if none strands it. -/
theorem selection_holds_iff_never_stranded (s : Session) (ops : List Operation)
    (hstart : s.selectedElement = .nothing ∧ s.selectedSection = none)
    (hselects : ∀ before target place,
      before ++ [.select target (place.map Except.ok)] <+: ops →
        Selects (s.run before).label target place) :
    (∀ before, before <+: ops → (s.run before).SelectionHolds) ↔
      ∀ before op, before ++ [op] <+: ops → ¬ (s.run before).Strands op := by
  have hstep : ∀ before op, before ++ [op] <+: ops → (s.run before).SelectionHolds →
      ((s.run (before ++ [op])).SelectionHolds ↔ ¬ (s.run before).Strands op) := by
    intro before op hprefix hbefore
    rw [Session.run_concat]
    apply Session.selectionHolds_step_iff hbefore
    rintro target place rfl
    exact hselects before target place hprefix
  constructor
  · intro hholds before op hprefix
    have hbefore := hholds before ((List.prefix_append before [op]).trans hprefix)
    exact (hstep before op hprefix hbefore).1 (hholds _ hprefix)
  · intro hnever before
    induction before using List.reverseRecOn with
    | nil => exact fun _ => Or.inl hstart
    | append_singleton before op ih =>
      intro hprefix
      have hbefore := ih ((List.prefix_append before [op]).trans hprefix)
      exact (hstep before op hprefix hbefore).2 (hnever before op hprefix)

/-- An element selected and then renamed. -/
def selectedThenRenamed : List Operation :=
  [.edit (.add (.ok .header) (droppedElement "a" .text)), .select (.id "a") (some (.ok .header)),
    .edit (.update (.ok .header) (.id "a") [("id", .str "b")])]

theorem renaming_strands_selection :
    ((Session.start Label.blank 50).selectedElement = .nothing ∧
      (Session.start Label.blank 50).selectedSection = none) ∧
    (∀ before target place,
      before ++ [.select target (place.map Except.ok)] <+: selectedThenRenamed →
        Selects ((Session.start Label.blank 50).run before).label target place) ∧
    ¬ ∀ before, before <+: selectedThenRenamed →
      ((Session.start Label.blank 50).run before).SelectionHolds := by
  have hstart : (Session.start Label.blank 50).selectedElement = .nothing ∧
      (Session.start Label.blank 50).selectedSection = none := ⟨rfl, rfl⟩
  have hselects : ∀ before target place,
      before ++ [.select target (place.map Except.ok)] <+: selectedThenRenamed →
        Selects ((Session.start Label.blank 50).run before).label target place := by
    intro before target place hprefix
    rcases before with _ | ⟨add, _ | ⟨select, _ | ⟨update, before⟩⟩⟩
    · simp [selectedThenRenamed] at hprefix
    · simp only [selectedThenRenamed, List.cons_append, List.nil_append,
        List.cons_prefix_cons, Operation.select.injEq] at hprefix
      obtain ⟨rfl, ⟨rfl, hplace⟩, -⟩ := hprefix
      cases place with
      | none => cases hplace
      | some name =>
        cases hplace
        rw [selects_iff]
        exact List.mem_singleton.2 rfl
    · simp [selectedThenRenamed] at hprefix
    · simp [selectedThenRenamed] at hprefix
  refine ⟨hstart, hselects, ?_⟩
  rw [selection_holds_iff_never_stranded _ selectedThenRenamed hstart hselects]
  intro hnever
  apply hnever (selectedThenRenamed.take 2) _ (List.prefix_refl selectedThenRenamed)
  have hother : ("b" : Text) ≠ "a" := by decide
  exact ⟨"a", .header, { droppedElement "a" .text with id := "b" }, rfl, rfl, rfl, rfl, hother, rfl⟩

/-- An id without characters counts as nothing when a label is brought back. -/
theorem undo_keeps_empty_id_selected :
    let s := Session.start Label.blank 50
    let add : Operation := .edit (.add (.ok .header) (droppedElement "" .text))
    let select : Operation := .select (.id "") (some (.ok .header))
    s.selectedElement = .nothing ∧ s.selectedSection = none ∧
      Selects (s.run [add]).label (.id "") (some .header) ∧
      ¬ (s.run [add, select, .undo]).SelectionHolds := by
  intro s add select
  refine ⟨rfl, rfl, ?_, ?_⟩
  · rw [selects_iff]
    exact List.mem_singleton.2 rfl
  · intro hholds
    have hmem := (selects_iff Label.blank "" .header).1 hholds
    cases hmem

end ThermalLabel.Editor
