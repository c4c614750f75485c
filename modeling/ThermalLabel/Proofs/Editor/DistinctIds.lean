import ThermalLabel.Proofs.Editor.Accepted
import ThermalLabel.Proofs.Editor.KeptFields
import ThermalLabel.Proofs.Editor.Snapshots
import ThermalLabel.Proofs.Label.DistinctIds
import ThermalLabel.Proofs.Label.Reading
/-!
# Sessions without repeated ids

An edit that adds an element first looks for its id on the whole label, and so does one that
renames an element; a move takes the id along. If ids are distinct on the labels that a session
begins with and on those that a client puts in their place, then they are distinct on every label
that the session ever holds.
-/

namespace ThermalLabel.Editor

open Schema

variable {label : Label} {place : SectionRef} {target : ElementRef} {r : Edited}

/-- No change gives an id as bytes. -/
def NoIdInBytes (changes : List (String × Json)) : Prop := ∀ data, ("id", .bytes data) ∉ changes

theorem noIdInBytes_of_not_mem {changes : List (String × Json)}
    (h : "id" ∉ changes.map Prod.fst) : NoIdInBytes changes :=
  fun _ hmem => h (List.mem_map_of_mem hmem)

/-- Where no id is given as bytes, that of a changed element is what stands under its name. -/
theorem member_id_of_changed {e new : Element} {changes : List (String × Json)}
    (hbytes : NoIdInBytes changes) (h : changed e changes = .ok new) :
    Json.member? "id" (changedMembers e changes) = some (.str new.id) := by
  have hid := Element.member_id_of_ofMembers h
  cases hmember : Json.member? "id" (changedMembers e changes) with
  | none =>
    rw [hmember] at hid
    cases hid
  | some v =>
    rw [hmember] at hid
    cases v with
    | str s => rw [Option.some.inj hid]
    | bytes data =>
      -- What the element itself wrote is a text, so the bytes are those of a change.
      have hchange := Json.lookup_overlay.symm.trans hmember
      rw [Option.or_eq_some_iff] at hchange
      rcases hchange with hlookup | ⟨-, hlookup⟩
      · obtain ⟨before, after, hchanges, -⟩ := List.lookup_eq_some_iff.1 hlookup
        have hmem : ("id", Json.bytes data) ∈ changes.reverse := by simp [hchanges]
        exact absurd (List.mem_reverse.1 hmem) (hbytes data)
      · cases hlookup
    | _ => cases hid

/-- A changed element keeps its id, unless it gets one that is nowhere on the label. -/
theorem id_of_changed {e new : Element} {changes : List (String × Json)}
    (hbytes : NoIdInBytes changes) (htaken : takenId? label e changes = none)
    (h : changed e changes = .ok new) : new.id = e.id ∨ ∀ n, new.id ∉ (label.part n).ids := by
  rw [takenId?, member_id_of_changed hbytes h] at htaken
  by_cases hsame : new.id = e.id
  · exact Or.inl hsame
  · right
    rw [← Label.not_hasId_iff]
    simpa [hsame] using htaken

theorem distinctIds_addElement {e : Element} (hlabel : label.DistinctIds)
    (h : addElement label place e = .ok r) : r.label.DistinctIds := by
  obtain ⟨hfree, name, -, rfl⟩ := addElement_eq_ok_iff.1 h
  exact hlabel.push name ((label.find?_eq_none_iff e.id).1 hfree)

theorem distinctIds_updateElement {changes : List (String × Json)} (hlabel : label.DistinctIds)
    (hbytes : NoIdInBytes changes)
    (h : updateElement label place target changes = .ok r) : r.label.DistinctIds := by
  obtain ⟨name, e, new, -, -, hfind, htaken, hnew, rfl⟩ := updateElement_eq_ok_iff.1 h
  exact hlabel.replace name (LabelSection.mem_ids_of_find? hfind)
    (id_of_changed hbytes htaken hnew)

theorem distinctIds_removeElement (hlabel : label.DistinctIds)
    (h : removeElement label place target = .ok r) : r.label.DistinctIds := by
  obtain ⟨name, e, -, -, -, rfl⟩ := removeElement_eq_ok_iff.1 h
  exact hlabel.without name e.id

theorem distinctIds_moveElement {zoom : Float} {event : ElementMove} (hlabel : label.DistinctIds)
    (h : moveElement zoom label event = .ok r) : r.label.DistinctIds := by
  obtain ⟨e, x, -, hfind, -, hcases⟩ := moveElement_eq_ok_iff.1 h
  rcases hcases with ⟨-, y, -, hupdate⟩ | ⟨-, rfl⟩
  · exact distinctIds_updateElement hlabel (noIdInBytes_of_not_mem (by simp)) hupdate
  · exact hlabel.move event.source event.target (LabelSection.mem_ids_of_find? hfind) _ rfl

theorem distinctIds_setSectionHeight (hlabel : label.DistinctIds) (name : SectionName)
    (height : Float) : (label.modifyPart name ({ · with height := height })).DistinctIds := by
  obtain ⟨hparts, hapart⟩ := (Label.distinctIds_iff label).1 hlabel
  exact hlabel.modifyPart name _ (hparts name) fun m hm x hx => hapart name m hm.symm x hx

/-- An accepted edit keeps ids distinct, if a label that it brings in has distinct ids itself and
an update gives no id as bytes. -/
theorem distinctIds_apply {zoom : Float} {edit : Edit} (hlabel : label.DistinctIds)
    (htemplate : ∀ new, edit = .setTemplate new → new.DistinctIds)
    (hupdate : ∀ place target changes, edit = .update place target changes → NoIdInBytes changes)
    (h : edit.apply zoom label = .ok r) : r.label.DistinctIds := by
  cases edit with
  | add place e => exact distinctIds_addElement hlabel h
  | update place target changes =>
    exact distinctIds_updateElement hlabel (hupdate place target changes rfl)
      (apply_update_eq_ok_iff.1 h).2
  | remove place target => exact distinctIds_removeElement hlabel h
  | setImageKey place target key =>
    exact distinctIds_updateElement hlabel
      (noIdInBytes_of_not_mem (keys_imageKeyChanges_not_mem key)) h
  | setImage place target image =>
    obtain ⟨bitmap, -, hr⟩ := bind_eq_ok_iff.1 h
    have hkeys : "id" ∉ (imageChanges image bitmap).map Prod.fst := by simp [imageChanges]
    exact distinctIds_updateElement hlabel (noIdInBytes_of_not_mem hkeys) hr
  | setSectionHeight place height =>
    obtain ⟨name, -, hr⟩ := bind_eq_ok_iff.1 h
    cases hr
    exact distinctIds_setSectionHeight hlabel name _
  | setCanvasWidth width =>
    cases h
    exact hlabel
  | clear =>
    cases h
    exact List.nodup_nil
  | setTemplate new =>
    cases h
    exact htemplate new rfl
  | dropTool event freshId =>
    obtain ⟨hfree, rfl⟩ := apply_dropTool_eq_ok_iff.1 h
    exact hlabel.push event.target ((label.find?_eq_none_iff freshId).1 hfree)
  | moveElement event => exact distinctIds_moveElement hlabel h

/-- If ids are distinct on the label of a session and on those that it can bring back (a new
session has none), and on every template that is brought in, and if no update gives an id as bytes,
then they are so on every label that the session holds after any run, whether its edits are accepted
or not. -/
theorem run_keeps_ids_distinct (s : Session) (ops : List Operation)
    (hlabel : s.label.DistinctIds)
    (hpast : ∀ entry ∈ s.past, entry.label.DistinctIds)
    (hfuture : ∀ entry ∈ s.future, entry.label.DistinctIds)
    (htemplates : ∀ new, .edit (.setTemplate new) ∈ ops → new.DistinctIds)
    (hupdates : ∀ place target changes, .edit (.update place target changes) ∈ ops →
      NoIdInBytes changes) :
    (s.run ops).label.DistinctIds ∧
      (∀ entry ∈ (s.run ops).past, entry.label.DistinctIds) ∧
      ∀ entry ∈ (s.run ops).future, entry.label.DistinctIds := by
  rw [← Session.forall_snapshots]
  apply Session.forall_snapshots_run (P := Label.DistinctIds) ops
  · rw [Session.forall_snapshots]
    exact ⟨hlabel, hpast, hfuture⟩
  · intro edit hedit zoom label r hbefore happly
    refine distinctIds_apply hbefore ?_ ?_ happly
    · intro new hnew
      exact htemplates new (hnew ▸ hedit)
    · intro place target changes hchanges
      exact hupdates place target changes (hchanges ▸ hedit)

def withText : Label := Label.blank.modifyPart .header (·.push (droppedElement "a" .text))

/-- A session in use, with something to undo and something to redo. -/
def inUse : Session :=
  { Session.start withText 2 with
    past := [⟨.addElement, Label.blank⟩]
    future := [⟨.addElement, withText.modifyPart .body (·.push (droppedElement "b" .box))⟩] }

/-- The first drop is refused, for its id is taken; the text crosses sections, is renamed and comes
back. -/
def dropsAndMoves : List Operation :=
  [.redo, .edit (.dropTool ⟨.box, .footer⟩ "a"), .edit (.dropTool ⟨.box, .footer⟩ "c"),
    .edit (.moveElement ⟨"a", .header, .body, 0.0, 0.0⟩),
    .edit (.update (.ok .body) (.id "a") [("id", .str "d")]), .edit (.setTemplate withText),
    .undo, .undo, .redo]

theorem dropsAndMoves_keep_ids_distinct :
    inUse.label.DistinctIds ∧ (∀ entry ∈ inUse.past, entry.label.DistinctIds) ∧
      (∀ entry ∈ inUse.future, entry.label.DistinctIds) ∧ withText.DistinctIds ∧
      (inUse.run dropsAndMoves).label.DistinctIds ∧
        (∀ entry ∈ (inUse.run dropsAndMoves).past, entry.label.DistinctIds) ∧
        ∀ entry ∈ (inUse.run dropsAndMoves).future, entry.label.DistinctIds := by
  have hlabel : inUse.label.DistinctIds := by decide
  have hpast : ∀ entry ∈ inUse.past, entry.label.DistinctIds := by decide
  have hfuture : ∀ entry ∈ inUse.future, entry.label.DistinctIds := by decide
  have htemplate : withText.DistinctIds := by decide
  refine ⟨hlabel, hpast, hfuture, htemplate, ?_⟩
  refine run_keeps_ids_distinct inUse dropsAndMoves hlabel hpast hfuture ?_ ?_
  · intro new hnew
    simp only [dropsAndMoves, List.mem_cons, Operation.edit.injEq, Edit.setTemplate.injEq,
      reduceCtorEq, false_or, or_false, List.not_mem_nil] at hnew
    rw [hnew]
    exact htemplate
  · intro place target changes hchanges data
    simp only [dropsAndMoves, List.mem_cons, Operation.edit.injEq, Edit.update.injEq,
      reduceCtorEq, false_or, or_false, List.not_mem_nil] at hchanges
    rw [hchanges.2.2]
    simp

/-- A label that came with a repeated id, and one without in its place. -/
def replaced : Session :=
  let twice := withText.modifyPart .body (·.push (droppedElement "a" .box))
  ((Session.start twice 5).step (.edit (.setTemplate withText))).1

/-- Two ids that are told apart, but not by an update that gives one of them as bytes. -/
def apart : Session :=
  Session.start (withText.modifyPart .footer (·.push (droppedElement "b" .box))) 5

def renameByBytes : Edit := .update (.ok .header) (.id "a") [("id", .bytes "b".toUTF8)]

theorem ids_repeat_after_undo_and_by_bytes :
    (replaced.label.DistinctIds ∧ ¬ (replaced.run [.undo]).label.DistinctIds) ∧
      (apart.label.DistinctIds ∧ apart.past = [] ∧ apart.future = [] ∧
        ¬ (apart.run [.edit renameByBytes]).label.DistinctIds) ∧
      ¬ ∀ (s : Session) (ops : List Operation), s.label.DistinctIds →
        (∀ new, .edit (.setTemplate new) ∈ ops → new.DistinctIds) →
        (s.run ops).label.DistinctIds := by
  have hreplaced : replaced.label.DistinctIds := by decide +kernel
  have hundone : ¬ (replaced.run [.undo]).label.DistinctIds := by decide +kernel
  have hapart : apart.label.DistinctIds := by decide +kernel
  have hrenamed : ¬ (apart.run [.edit renameByBytes]).label.DistinctIds := by decide +kernel
  refine ⟨⟨hreplaced, hundone⟩, ⟨hapart, rfl, rfl, hrenamed⟩, ?_⟩
  intro hclaimed
  exact hundone (hclaimed replaced [.undo] hreplaced (by simp))

end ThermalLabel.Editor
