import ThermalLabel.Editor.Edit
import ThermalLabel.Proofs.Label.RoundTrip
/-!
# What a change of an element makes of its fields

An element is changed by reading it again with members written over its own. A field that a change
names, in either spelling, is read from the last change of that name. A field that no change names
is read from where the element itself wrote it, so it keeps its value.
-/

namespace ThermalLabel

namespace Json

variable {key : String} {members changes : List (String × Json)}

theorem lookup_cons_eq_ite (k : String) (v : Json) :
    ((k, v) :: members).lookup key = if key = k then some v else members.lookup key := by
  by_cases h : key = k
  · simp [h]
  · simp [List.lookup_cons, h, beq_false_of_ne h]

theorem lookup_put (k : String) (v : Json) :
    (put k v members).lookup key = if key = k then some v else members.lookup key := by
  induction members with
  | nil => exact lookup_cons_eq_ite k v
  | cons m members ih =>
    obtain ⟨name, w⟩ := m
    by_cases hname : name = k
    · rw [put, if_pos hname, lookup_cons_eq_ite, lookup_cons_eq_ite, hname]
      by_cases hkey : key = k <;> simp [hkey]
    · rw [put, if_neg hname, lookup_cons_eq_ite, lookup_cons_eq_ite, ih]
      by_cases hkey : key = name
      · simp [hkey, hname]
      · simp [hkey]

/-- The last change of a key counts, and without one what was there. -/
theorem lookup_overlay :
    (overlay members changes).lookup key = (changes.reverse.lookup key).or (members.lookup key) := by
  induction changes generalizing members with
  | nil => rfl
  | cons m changes ih =>
    obtain ⟨k, v⟩ := m
    calc (overlay (put k v members) changes).lookup key
        = (changes.reverse.lookup key).or ((put k v members).lookup key) := ih
      _ = (changes.reverse.lookup key).or (([(k, v)].lookup key).or (members.lookup key)) := by
          rw [lookup_put, lookup_cons_eq_ite]
          by_cases hkey : key = k <;> simp [hkey]
      _ = (((k, v) :: changes).reverse.lookup key).or (members.lookup key) := by
          rw [List.reverse_cons, List.lookup_append, Option.or_assoc]

theorem lookup_overlay_of_not_mem (h : key ∉ changes.map Prod.fst) :
    (overlay members changes).lookup key = members.lookup key := by
  have hnone : changes.reverse.lookup key = none := by
    rw [List.lookup_eq_none_iff]
    intro m hm
    have hkey : key ≠ m.1 := by
      rintro rfl
      exact h (List.mem_map_of_mem (List.mem_reverse.1 hm))
    exact bne_iff_ne.2 hkey
  rw [lookup_overlay, hnone, Option.none_or]

end Json

namespace Schema

variable {α : Type} {check : Json → Checked α} {f : FieldName}
  {members changes : List (String × Json)}

/-- What becomes of a field: what its check reads from the last change that names it, or else what
it was. -/
def FieldName.Becomes (f : FieldName) (check : Json → Checked α) (changes : List (String × Json))
    (old new : α) : Prop :=
  match f.find? changes.reverse with
  | some (_, v) => check v = .ok new
  | none => new = old

/-- A field that has two names is not found under the one that counts first. -/
def FieldName.NotJoined (f : FieldName) (members : List (String × Json)) : Prop :=
  f.joined = f.underscored ∨ members.lookup f.joined = none

theorem find?_overlay (h : f.NotJoined members) :
    f.find? (Json.overlay members changes) = (f.find? changes.reverse).or (f.find? members) := by
  simp only [FieldName.find?, Json.lookup_overlay]
  cases hchange : changes.reverse.lookup f.joined with
  | some v => rfl
  | none =>
    rcases h with hname | hnone
    · rw [← hname, hchange, Option.map_none, Option.none_or, Option.none_or]
    · rw [hnone, Option.none_or, Option.map_or]

theorem becomes_of_required {old new : α} (h : f.NotJoined members)
    (hold : required f check members = .ok old)
    (hnew : required f check (Json.overlay members changes) = .ok new) :
    f.Becomes check changes old new := by
  rw [required, find?_overlay h] at hnew
  unfold FieldName.Becomes
  cases hchange : f.find? changes.reverse with
  | some m =>
    rw [hchange] at hnew
    exact (Checked.within_eq_ok_iff _ _ _).1 hnew
  | none =>
    rw [hchange] at hnew
    exact Checked.ok.inj (hnew.symm.trans hold)

theorem becomes_of_withDefault {default old new : α} (h : f.NotJoined members)
    (hold : withDefault f default check members = .ok old)
    (hnew : withDefault f default check (Json.overlay members changes) = .ok new) :
    f.Becomes check changes old new := by
  rw [withDefault, find?_overlay h] at hnew
  unfold FieldName.Becomes
  cases hchange : f.find? changes.reverse with
  | some m =>
    rw [hchange] at hnew
    exact (Checked.within_eq_ok_iff _ _ _).1 hnew
  | none =>
    rw [hchange] at hnew
    exact Checked.ok.inj (hnew.symm.trans hold)

end Schema

open Schema

/-- An element that has become another by changes, each field by those that name it. -/
structure Element.Rewritten (changes : List (String × Json)) (e new : Element) : Prop where
  id : Field.id.Becomes readText changes e.id new.id
  kind : Field.kind.Becomes (readName ElementKind.names) changes e.kind new.kind
  x : Field.x.Becomes readFloat changes e.x new.x
  y : Field.y.Becomes readFloat changes e.y new.y
  width : Field.width.Becomes (readOptional readFloat) changes e.width new.width
  height : Field.height.Becomes (readOptional readFloat) changes e.height new.height
  content : Field.content.Becomes (readOptional readText) changes e.content new.content
  isDynamic : Field.isDynamic.Becomes readBool changes e.isDynamic new.isDynamic
  dataSource : Field.dataSource.Becomes (readOptional readText) changes e.dataSource new.dataSource
  imageKey : Field.imageKey.Becomes (readOptional readText) changes e.imageKey new.imageKey
  fontSize : Field.fontSize.Becomes (readOptional readFloat) changes e.fontSize new.fontSize
  fontBold : Field.fontBold.Becomes (readOptional readBool) changes e.fontBold new.fontBold
  rotation : Field.rotation.Becomes (readOptional readInt) changes e.rotation new.rotation
  maxChars : Field.maxChars.Becomes (readOptional readNat) changes e.maxChars new.maxChars
  barcodeKind : Field.barcodeKind.Becomes (readOptional (readName BarcodeKind.names)) changes
    e.barcodeKind new.barcodeKind
  showLabel : Field.showLabel.Becomes (readOptional readBool) changes e.showLabel new.showLabel
  bitmap : Field.bitmap.Becomes (readOptional (Bitmap.read .value)) changes e.bitmap new.bitmap
  imageData : Field.imageData.Becomes (readOptional readText) changes e.imageData new.imageData

namespace Editor

theorem keys_imageKeyChanges_not_mem (key : Json) : "id" ∉ (imageKeyChanges key).map Prod.fst := by
  unfold imageKeyChanges
  split <;> simp

theorem rewritten_of_changed {e new : Element} {changes : List (String × Json)}
    (h : changed e changes = .ok new) : e.Rewritten changes new := by
  have hnew := Element.fieldsOf_eq_ok_iff.1 (Element.ofMembers_eq_ok_iff.1 h).1
  have hold := Element.fieldsOf_eq_ok_iff.1 (Element.fieldsOf_toMembers .value .underscored e)
  obtain ⟨hid, hkind, hx, hy, hwidth, hheight, hcontent, hisDynamic, hdataSource, himageKey,
    hfontSize, hfontBold, hrotation, hmaxChars, hbarcodeKind, hshowLabel, hbitmap, himageData⟩ :=
    hold
  obtain ⟨hid', hkind', hx', hy', hwidth', hheight', hcontent', hisDynamic', hdataSource',
    himageKey', hfontSize', hfontBold', hrotation', hmaxChars', hbarcodeKind', hshowLabel',
    hbitmap', himageData'⟩ := hnew
  exact {
    id := becomes_of_required (.inl rfl) hid hid'
    kind := becomes_of_withDefault (.inl rfl) hkind hkind'
    x := becomes_of_withDefault (.inl rfl) hx hx'
    y := becomes_of_withDefault (.inl rfl) hy hy'
    width := becomes_of_withDefault (.inl rfl) hwidth hwidth'
    height := becomes_of_withDefault (.inl rfl) hheight hheight'
    content := becomes_of_withDefault (.inl rfl) hcontent hcontent'
    isDynamic := becomes_of_withDefault (.inr rfl) hisDynamic hisDynamic'
    dataSource := becomes_of_withDefault (.inr rfl) hdataSource hdataSource'
    imageKey := becomes_of_withDefault (.inr rfl) himageKey himageKey'
    fontSize := becomes_of_withDefault (.inr rfl) hfontSize hfontSize'
    fontBold := becomes_of_withDefault (.inr rfl) hfontBold hfontBold'
    rotation := becomes_of_withDefault (.inl rfl) hrotation hrotation'
    maxChars := becomes_of_withDefault (.inr rfl) hmaxChars hmaxChars'
    barcodeKind := becomes_of_withDefault (.inr rfl) hbarcodeKind hbarcodeKind'
    showLabel := becomes_of_withDefault (.inr rfl) hshowLabel hshowLabel'
    bitmap := becomes_of_withDefault (.inr rfl) hbitmap hbitmap'
    imageData := becomes_of_withDefault (.inr rfl) himageData himageData' }

end Editor
end ThermalLabel
