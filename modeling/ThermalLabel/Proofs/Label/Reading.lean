import ThermalLabel.Label.Document
import ThermalLabel.Proofs.Schema.Checked
/-!
# What reading a label finds

A bitmap, an element, a section or a label is read from the members of an object exactly when each
of its fields is, and an element only when it does not take its picture from two places. So on a
label that was read none does.
-/

namespace ThermalLabel

open Schema

/-- The text that a value is or, as bytes, encodes. -/
def Json.text? : Json → Option Text
  | .str s => some s
  | .bytes data => String.fromUTF8? data
  | _ => none

theorem Schema.readText_eq_ok_iff {v : Json} {s : Text} :
    readText v = .ok s ↔ v.text? = some s := by
  cases v with
  | bytes data =>
    simp only [readText, readBytes, Json.text?]
    cases String.fromUTF8? data <;> simp
  | _ => simp [readText, Json.text?]

variable {origin : Origin} {members : List (String × Json)}

theorem Bitmap.ofMembers_eq_ok_iff {b : Bitmap} :
    Bitmap.ofMembers members = .ok b ↔
      required Bitmap.Field.payload readText members = .ok b.payload ∧
      required Bitmap.Field.totalBytes readNat members = .ok b.totalBytes ∧
      required Bitmap.Field.bytesPerRow readNat members = .ok b.bytesPerRow := by
  have hexists : Bitmap.ofMembers members = .ok b ↔
      ∃ b', Bitmap.ofMembers members = .ok b' ∧ b' = b := by
    simp
  rw [hexists]
  simp only [Bitmap.ofMembers, Checked.map_eq, Checked.seq_eq, Checked.exists_seq_ok,
    Checked.exists_map_ok]
  constructor
  · rintro ⟨_, hbytesPerRow, _, htotalBytes, _, hpayload, rfl⟩
    exact ⟨hpayload, htotalBytes, hbytesPerRow⟩
  · rintro ⟨hpayload, htotalBytes, hbytesPerRow⟩
    exact ⟨_, hbytesPerRow, _, htotalBytes, _, hpayload, rfl⟩

theorem LabelSection.ofMembers_eq_ok_iff {s : LabelSection} :
    LabelSection.ofMembers origin members = .ok s ↔
      required LabelSection.Field.height readFloat members = .ok s.height ∧
      withDefault LabelSection.Field.elements [] (readList (Element.read origin)) members =
        .ok s.elements := by
  have hexists : LabelSection.ofMembers origin members = .ok s ↔
      ∃ s', LabelSection.ofMembers origin members = .ok s' ∧ s' = s := by
    simp
  rw [hexists]
  simp only [LabelSection.ofMembers, Checked.map_eq, Checked.seq_eq, Checked.exists_seq_ok,
    Checked.exists_map_ok]
  constructor
  · rintro ⟨_, helements, _, hheight, rfl⟩
    exact ⟨hheight, helements⟩
  · rintro ⟨hheight, helements⟩
    exact ⟨_, helements, _, hheight, rfl⟩

theorem Label.ofMembers_eq_ok_iff {l : Label} :
    Label.ofMembers origin members = .ok l ↔
      withDefault Label.Field.header Label.blank.header (LabelSection.read origin) members =
        .ok l.header ∧
      withDefault Label.Field.body Label.blank.body (LabelSection.read origin) members =
        .ok l.body ∧
      withDefault Label.Field.footer Label.blank.footer (LabelSection.read origin) members =
        .ok l.footer ∧
      withDefault Label.Field.canvasWidth Label.blank.canvasWidth readFloat members =
        .ok l.canvasWidth := by
  have hexists : Label.ofMembers origin members = .ok l ↔
      ∃ l', Label.ofMembers origin members = .ok l' ∧ l' = l := by
    simp
  rw [hexists]
  simp only [Label.ofMembers, Checked.map_eq, Checked.seq_eq, Checked.exists_seq_ok,
    Checked.exists_map_ok]
  constructor
  · rintro ⟨_, hcanvasWidth, _, hfooter, _, hbody, _, hheader, rfl⟩
    exact ⟨hheader, hbody, hfooter, hcanvasWidth⟩
  · rintro ⟨hheader, hbody, hfooter, hcanvasWidth⟩
    exact ⟨_, hcanvasWidth, _, hfooter, _, hbody, _, hheader, rfl⟩

end ThermalLabel

namespace ThermalLabel.Element

open Schema

variable {origin : Origin} {members : List (String × Json)}

theorem fieldsOf_eq_ok_iff {e : Element} :
    fieldsOf origin members = .ok e ↔
      required Field.id readText members = .ok e.id ∧
      withDefault Field.kind .text (readName ElementKind.names) members = .ok e.kind ∧
      withDefault Field.x 0.0 readFloat members = .ok e.x ∧
      withDefault Field.y 0.0 readFloat members = .ok e.y ∧
      optional Field.width readFloat members = .ok e.width ∧
      optional Field.height readFloat members = .ok e.height ∧
      optional Field.content readText members = .ok e.content ∧
      withDefault Field.isDynamic false readBool members = .ok e.isDynamic ∧
      optional Field.dataSource readText members = .ok e.dataSource ∧
      optional Field.imageKey readText members = .ok e.imageKey ∧
      optional Field.fontSize readFloat members = .ok e.fontSize ∧
      optional Field.fontBold readBool members = .ok e.fontBold ∧
      optional Field.rotation readInt members = .ok e.rotation ∧
      optional Field.maxChars readNat members = .ok e.maxChars ∧
      optional Field.barcodeKind (readName BarcodeKind.names) members = .ok e.barcodeKind ∧
      optional Field.showLabel readBool members = .ok e.showLabel ∧
      optional Field.bitmap (Bitmap.read origin) members = .ok e.bitmap ∧
      optional Field.imageData readText members = .ok e.imageData := by
  have hexists : fieldsOf origin members = .ok e ↔
      ∃ e', fieldsOf origin members = .ok e' ∧ e' = e := by
    simp
  rw [hexists]
  simp only [fieldsOf, Checked.map_eq, Checked.seq_eq, Checked.exists_seq_ok,
    Checked.exists_map_ok]
  constructor
  · rintro ⟨_, himageData, _, hbitmap, _, hshowLabel, _, hbarcodeKind, _, hmaxChars, _, hrotation,
      _, hfontBold, _, hfontSize, _, himageKey, _, hdataSource, _, hisDynamic, _, hcontent,
      _, hheight, _, hwidth, _, hy, _, hx, _, hkind, _, hid, rfl⟩
    exact ⟨hid, hkind, hx, hy, hwidth, hheight, hcontent, hisDynamic, hdataSource, himageKey,
      hfontSize, hfontBold, hrotation, hmaxChars, hbarcodeKind, hshowLabel, hbitmap, himageData⟩
  · rintro ⟨hid, hkind, hx, hy, hwidth, hheight, hcontent, hisDynamic, hdataSource, himageKey,
      hfontSize, hfontBold, hrotation, hmaxChars, hbarcodeKind, hshowLabel, hbitmap, himageData⟩
    exact ⟨_, himageData, _, hbitmap, _, hshowLabel, _, hbarcodeKind, _, hmaxChars, _, hrotation,
      _, hfontBold, _, hfontSize, _, himageKey, _, hdataSource, _, hisDynamic, _, hcontent,
      _, hheight, _, hwidth, _, hy, _, hx, _, hkind, _, hid, rfl⟩

theorem checkImageSources_eq_ok_iff {e new : Element} :
    checkImageSources e = .ok new ↔ e.hasTwoImageSources = false ∧ e = new := by
  unfold checkImageSources
  cases e.hasTwoImageSources <;> simp

theorem ofMembers_eq_ok_iff {e : Element} :
    ofMembers origin members = .ok e ↔
      fieldsOf origin members = .ok e ∧ e.hasTwoImageSources = false := by
  simp only [ofMembers, Checked.andThen_eq_ok_iff, checkImageSources_eq_ok_iff]
  constructor
  · rintro ⟨_, hfields, hsources, rfl⟩
    exact ⟨hfields, hsources⟩
  · rintro ⟨hfields, hsources⟩
    exact ⟨e, hfields, hsources, rfl⟩

/-- The id of an element that was read is what stands under its name. -/
theorem member_id_of_ofMembers {e : Element} (h : ofMembers origin members = .ok e) :
    (Json.member? "id" members).bind Json.text? = some e.id := by
  have hid := (fieldsOf_eq_ok_iff.1 (ofMembers_eq_ok_iff.1 h).1).1
  simp only [required, FieldName.find?, Field.id, FieldName.plain] at hid
  cases hlookup : members.lookup "id" with
  | none =>
    rw [hlookup] at hid
    cases hid
  | some v =>
    rw [hlookup] at hid
    rw [Json.member?, hlookup]
    exact readText_eq_ok_iff.1 ((Checked.within_eq_ok_iff _ _ _).1 hid)

end ThermalLabel.Element

namespace ThermalLabel

open Schema

section

variable {α : Type} {check : Json → Checked α}

/-- What a read list holds was read item by item. -/
theorem exists_of_mem_eachFrom {items : List Json} {start : Nat} {l : List α}
    (h : Checked.eachFrom check start items = .ok l) : ∀ a ∈ l, ∃ v, check v = .ok a := by
  induction items generalizing start l with
  | nil =>
    cases h
    intro a ha
    cases ha
  | cons v items ih =>
    have hexists : ∃ l', Checked.eachFrom check start (v :: items) = .ok l' ∧ l' = l := ⟨l, h, rfl⟩
    simp only [Checked.eachFrom, Checked.map_eq, Checked.seq_eq, Checked.exists_seq_ok,
      Checked.exists_map_ok, Checked.within_eq_ok_iff] at hexists
    obtain ⟨rest, hrest, b, hb, rfl⟩ := hexists
    intro a ha
    rcases List.mem_cons.1 ha with rfl | ha
    · exact ⟨v, hb⟩
    · exact ih hrest a ha

theorem exists_of_mem_readList {v : Json} {l : List α} (h : readList check v = .ok l) :
    ∀ a ∈ l, ∃ w, check w = .ok a := by
  cases v with
  | arr items => exact exists_of_mem_eachFrom h
  | _ => simp [readList] at h

theorem exists_of_required {f : FieldName} {a : α} {members : List (String × Json)}
    (h : required f check members = .ok a) : ∃ v, check v = .ok a := by
  unfold required at h
  split at h
  · exact ⟨_, (Checked.within_eq_ok_iff _ _ _).1 h⟩
  · cases h

theorem eq_or_exists_of_withDefault {f : FieldName} {default a : α}
    {members : List (String × Json)} (h : withDefault f default check members = .ok a) :
    a = default ∨ ∃ v, check v = .ok a := by
  unfold withDefault at h
  split at h
  · exact Or.inr ⟨_, (Checked.within_eq_ok_iff _ _ _).1 h⟩
  · exact Or.inl (Checked.ok.inj h).symm

theorem exists_of_readRecord {origin : Origin} {name : String}
    {check : List (String × Json) → Checked α} {v : Json} {a : α}
    (h : readRecord origin name check v = .ok a) : ∃ members, check members = .ok a := by
  cases v with
  | obj members => exact ⟨members, h⟩
  | _ => simp [readRecord] at h

end

variable {origin : Origin} {v : Json}

theorem Element.onePicture_of_read {e : Element} (h : Element.read origin v = .ok e) :
    e.hasTwoImageSources = false := by
  obtain ⟨members, hmembers⟩ := exists_of_readRecord h
  exact (Element.ofMembers_eq_ok_iff.1 hmembers).2

/-- No element takes its picture from two places. -/
def Label.OnePictureEach (label : Label) : Prop :=
  ∀ name, ∀ e ∈ (label.part name).elements, e.hasTwoImageSources = false

theorem LabelSection.onePicture_of_read {s : LabelSection}
    (h : LabelSection.read origin v = .ok s) : ∀ e ∈ s.elements, e.hasTwoImageSources = false := by
  obtain ⟨members, hmembers⟩ := exists_of_readRecord h
  intro e he
  rcases eq_or_exists_of_withDefault (LabelSection.ofMembers_eq_ok_iff.1 hmembers).2 with
    hnone | ⟨items, hitems⟩
  · rw [hnone] at he
    cases he
  · obtain ⟨w, hw⟩ := exists_of_mem_readList hitems e he
    exact Element.onePicture_of_read hw

theorem Label.onePictureEach_of_read {label : Label} (h : Label.read origin v = .ok label) :
    label.OnePictureEach := by
  obtain ⟨members, hmembers⟩ := exists_of_readRecord h
  obtain ⟨hheader, hbody, hfooter, -⟩ := Label.ofMembers_eq_ok_iff.1 hmembers
  have hsection {s blank : LabelSection} {f : FieldName} (hblank : blank.elements = [])
      (hs : withDefault f blank (LabelSection.read origin) members = .ok s) :
      ∀ e ∈ s.elements, e.hasTwoImageSources = false := by
    rcases eq_or_exists_of_withDefault hs with rfl | ⟨w, hw⟩
    · rw [hblank]
      intro e he
      cases he
    · exact LabelSection.onePicture_of_read hw
  intro name
  cases name with
  | header => exact hsection rfl hheader
  | body => exact hsection rfl hbody
  | footer => exact hsection rfl hfooter

end ThermalLabel
