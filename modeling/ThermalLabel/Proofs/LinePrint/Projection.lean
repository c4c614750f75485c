import Mathlib
import ThermalLabel.Label.Lookup
import ThermalLabel.Proofs.LinePrint.OrderIndependent
import ThermalLabel.Proofs.Number.Scaled
/-!
# When a label has a form in characters

A text or a rule needs a column, and a rule needs a length. Where one of these is no number or out
of reach there is no text at all, of the element or of any other: a printer document leaves such an
element out, lines of characters do not. An element without a form in characters is never in the
way, wherever it stands.
-/

namespace ThermalLabel.LinePrint

/-! ## Columns -/

theorem exists_floorOf_iff {x : Float} : (∃ n, floorOf x = .ok n) ↔ x.isFinite = true := by
  rw [← isFinite_ofFloat, floorOf]
  cases ExactValue.ofFloat x <;> simp [ExactValue.isFinite]

theorem isFinite_mul_columns (x : Float) : (x * columnsPerMillimeter).isFinite = x.isFinite := by
  have hscale : columnsPerMillimeter.toModel.unpack =
      .finite .positive 5404319552844595 (-53) (by decide) := rfl
  exact isFinite_mul_eq hscale (by decide)

theorem isFinite_pixelsToMillimeters (x : Float) :
    (pixelsToMillimeters x).isFinite = x.isFinite := by
  have hscale : pixelsPerMillimeter.toModel.unpack =
      .finite .positive 8510739453298576 (-51) (by decide) := rfl
  exact isFinite_div_eq hscale (by decide)

/-- Exactly the finite distances have a column. -/
theorem exists_columnFor_iff {x : Float} : (∃ n, columnFor x = .ok n) ↔ x.isFinite = true := by
  rw [columnFor, exists_floorOf_iff, isFinite_mul_columns, isFinite_pixelsToMillimeters]

/-! ## Elements -/

variable (data : SampleData) (mode : Mode) (row : Option DataRecord)

def boxWidth (e : Element) : Float := (nonzero? e.width).getD 0.0

/-- Flat and wide, so that a box of this size is a rule. -/
def IsRule (e : Element) : Prop :=
  (nonzero? e.height).getD 0.0 < ruleHeight ∧ ruleWidth < boxWidth e

instance (e : Element) : Decidable (IsRule e) := inferInstanceAs (Decidable (_ ∧ _))

/-- An element has a form in characters. -/
def Shows (e : Element) : Prop :=
  (e.kind = .text ∧ data.contentOf e mode row ≠ "") ∨ (e.kind = .box ∧ IsRule e)

instance (e : Element) : Decidable (Shows data mode row e) :=
  inferInstanceAs (Decidable (_ ∨ _))

/-- The length of a rule is in reach. -/
def HasLength (e : Element) : Prop := ∃ n, columnFor (boxWidth e) = .ok n ∧ n < 2 ^ 63

instance (e : Element) : Decidable (HasLength e) :=
  decidable_of_iff (∃ n ∈ (columnFor (boxWidth e)).toOption, n < 2 ^ 63) <| by
    unfold HasLength
    cases columnFor (boxWidth e) <;> simp [Except.toOption]

/-- Whatever an element shows can be put on a line. -/
def Projectable (e : Element) : Prop :=
  Shows data mode row e → e.x.isFinite = true ∧ (e.kind = .box → HasLength e)

instance (e : Element) : Decidable (Projectable data mode row e) :=
  inferInstanceAs (Decidable (_ → _))

variable {data mode row} {e : Element}

theorem characters_of_not_shows (h : ¬ Shows data mode row e) :
    characters data mode e row = .ok "" := by
  unfold characters
  cases hkind : e.kind with
  | text =>
    have hempty : data.contentOf e mode row = "" := not_not.1 fun hne => h (.inl ⟨hkind, hne⟩)
    exact congrArg Except.ok hempty
  | box => exact if_neg fun hrule => h (.inr ⟨hkind, hrule⟩)
  | barcode => rfl
  | image => rfl

theorem characters_text (hkind : e.kind = .text) :
    characters data mode e row = .ok (data.contentOf e mode row) := by
  unfold characters
  rw [hkind]

theorem characters_rule (hkind : e.kind = .box) (h : IsRule e) :
    characters data mode e row = columnFor (boxWidth e) >>= fun n => repeated '-' (max 1 n) := by
  unfold characters
  rw [hkind]
  exact if_pos h

theorem ne_empty_of_characters (h : Shows data mode row e) {text : Text}
    (htext : characters data mode e row = .ok text) : text ≠ "" := by
  rcases h with ⟨hkind, hne⟩ | ⟨hkind, hrule⟩
  · rw [characters_text hkind] at htext
    exact Except.ok.inj htext ▸ hne
  · rw [characters_rule hkind hrule] at htext
    obtain ⟨n, -, hdashes⟩ := bind_eq_ok_iff.1 htext
    exact ne_empty_of_repeated (le_max_left 1 n) hdashes

theorem exists_characters_iff (h : Shows data mode row e) :
    (∃ text, characters data mode e row = .ok text) ↔ (e.kind = .box → HasLength e) := by
  rcases h with ⟨hkind, -⟩ | ⟨hkind, hrule⟩
  · rw [hkind]
    exact iff_of_true ⟨_, characters_text hkind⟩ nofun
  · rw [characters_rule hkind hrule, exists_bind_eq_ok_iff]
    simp only [exists_repeated_iff, HasLength, hkind, true_imp_iff]
    refine exists_congr fun n => and_congr_right' ?_
    rw [max_lt_iff]
    exact and_iff_right (by decide)

theorem itemOf_of_not_shows (h : ¬ Shows data mode row e) :
    itemOf data mode e row = .ok none := by
  rw [itemOf, characters_of_not_shows h]
  rfl

theorem exists_itemOf_iff :
    (∃ item, itemOf data mode e row = .ok item) ↔ Projectable data mode row e := by
  by_cases hshows : Shows data mode row e
  · rw [itemOf, exists_bind_eq_ok_iff]
    constructor
    · rintro ⟨text, htext, hitem⟩ -
      rw [if_neg (ne_empty_of_characters hshows htext), exists_bind_eq_ok_iff] at hitem
      obtain ⟨column, hcolumn, -⟩ := hitem
      exact ⟨exists_columnFor_iff.1 ⟨column, hcolumn⟩,
        (exists_characters_iff hshows).1 ⟨text, htext⟩⟩
    · intro h
      obtain ⟨hx, hlength⟩ := h hshows
      obtain ⟨text, htext⟩ := (exists_characters_iff hshows).2 hlength
      obtain ⟨column, hcolumn⟩ := exists_columnFor_iff.2 hx
      have hne := ne_empty_of_characters hshows htext
      refine ⟨text, htext, some ⟨e.y, column, text⟩, ?_⟩
      rw [if_neg hne, hcolumn]
      rfl
  · exact iff_of_true ⟨none, itemOf_of_not_shows hshows⟩ fun h => absurd h hshows

/-! ## Sections -/

variable (data mode row) in
/-- Every element of a section can be put on a line, and every line can be laid out. -/
structure Printable (elements : List Element) : Prop where
  projectable : ∀ e ∈ elements, Projectable data mode row e
  fits : ∀ line ∈ groupLines (elements.filterMap (item? data mode row)), line.Fits

instance (elements : List Element) : Decidable (Printable data mode row elements) :=
  decidable_of_iff ((∀ e ∈ elements, Projectable data mode row e) ∧
    ∀ line ∈ groupLines (elements.filterMap (item? data mode row)), line.Fits)
    ⟨fun h => ⟨h.1, h.2⟩, fun h => ⟨h.projectable, h.fits⟩⟩

theorem exists_sectionText_iff {elements : List Element} :
    (∃ text, sectionText data mode elements row = .ok text) ↔
      Printable data mode row elements := by
  by_cases hprojectable : ∀ e ∈ elements, Projectable data mode row e
  · have hitems := fun e he => exists_itemOf_iff.2 (hprojectable e he)
    rw [sectionText_eq data mode row hitems, exists_map_eq_ok_iff, exists_mapM_eq_ok_iff]
    simp only [exists_text_iff]
    exact ⟨fun hfits => ⟨hprojectable, hfits⟩, Printable.fits⟩
  · refine iff_of_false (fun htext => hprojectable ?_) fun h => hprojectable h.projectable
    rw [sectionText, exists_bind_eq_ok_iff] at htext
    obtain ⟨items, hitems, -⟩ := htext
    intro e he
    exact exists_itemOf_iff.1 (exists_mapM_eq_ok_iff.1 ⟨items, hitems⟩ e he)

theorem sectionText_eq_bind (elements : List Element) :
    sectionText data mode elements row =
      (elements.mapM fun e => itemOf data mode e row).map (List.filterMap id) >>= fun items => do
        let lines ← (groupLines items).mapM Line.text
        return Text.join (lines.map (· ++ "\n")) := by
  rw [bind_map_eq]
  rfl

theorem sectionText_skip {before after : List Element} (h : ¬ Shows data mode row e) :
    sectionText data mode (before ++ e :: after) row =
      sectionText data mode (before ++ after) row := by
  have hskip : ((before ++ e :: after).mapM fun e => itemOf data mode e row).map
      (List.filterMap id) = _ :=
    mapM_filterMap_skip (f := fun e => itemOf data mode e row) (itemOf_of_not_shows h)
  rw [sectionText_eq_bind, hskip, ← sectionText_eq_bind]

/-! ## Labels -/

variable {label label' : Label} {requested : Int}

variable (data mode requested) in
/-- The records that a section is printed with, from first to last. -/
def recordsOf : SectionName → List (Option DataRecord)
  | .header => [none]
  | .body => (List.range (mode.bodyRows requested).toNat).map fun i : Nat => data.recordOf mode i
  | .footer => [none]

theorem exists_labelText_iff :
    (∃ text, labelText data mode label requested = .ok text) ↔
      label.canvasWidth.isFinite = true ∧ ∀ name, ∀ row ∈ recordsOf data mode requested name,
        Printable data mode row (label.part name).elements := by
  have hsections : (∀ name, ∀ row ∈ recordsOf data mode requested name,
      Printable data mode row (label.part name).elements) ↔
        Printable data mode none label.header.elements ∧
        (∀ i ∈ List.range (mode.bodyRows requested).toNat,
          Printable data mode (data.recordOf mode i) label.body.elements) ∧
        Printable data mode none label.footer.elements := by
    constructor
    · intro h
      have hheader := h .header none List.mem_cons_self
      have hfooter := h .footer none List.mem_cons_self
      exact ⟨hheader, fun i hi => h .body _ (List.mem_map_of_mem hi), hfooter⟩
    · rintro ⟨hheader, hbody, hfooter⟩ name row hrow
      cases name with
      | header => exact List.mem_singleton.1 hrow ▸ hheader
      | body =>
        obtain ⟨i, hi, rfl⟩ := List.mem_map.1 hrow
        exact hbody i hi
      | footer => exact List.mem_singleton.1 hrow ▸ hfooter
  have hrows : (∀ i ∈ List.range (mode.bodyRows requested).toNat,
      ∃ text, sectionText data mode label.body.elements (data.recordOf mode i) = .ok text) ↔
        ∃ rows, (List.range (mode.bodyRows requested).toNat).mapM
          (rowText data mode label.body.elements) = .ok rows := exists_mapM_eq_ok_iff.symm
  rw [hsections, ← isFinite_mul_columns, ← exists_floorOf_iff]
  simp only [← exists_sectionText_iff]
  rw [hrows]
  simp [labelText, exists_bind_eq_ok_iff, pure, Except.pure]

theorem labelText_congr (hwidth : label.canvasWidth = label'.canvasWidth)
    (h : ∀ name, ∀ row ∈ recordsOf data mode requested name,
      sectionText data mode (label.part name).elements row =
        sectionText data mode (label'.part name).elements row) :
    labelText data mode label requested = labelText data mode label' requested := by
  have hheader : sectionText data mode label.header.elements none = _ :=
    h .header none List.mem_cons_self
  have hfooter : sectionText data mode label.footer.elements none = _ :=
    h .footer none List.mem_cons_self
  have hbody : (List.range (mode.bodyRows requested).toNat).mapM
      (rowText data mode label.body.elements) =
        (List.range (mode.bodyRows requested).toNat).mapM
          (rowText data mode label'.body.elements) :=
    mapM_congr fun i hi => h .body _ (List.mem_map_of_mem hi)
  unfold labelText
  rw [hwidth, hheader, hbody, hfooter]
  rfl

theorem labelText_skip {name : SectionName} {before after : List Element}
    (hpart : (label.part name).elements = before ++ e :: after)
    (h : ∀ row ∈ recordsOf data mode requested name, ¬ Shows data mode row e) :
    labelText data mode (label.modifyPart name ({ · with elements := before ++ after }))
      requested = labelText data mode label requested := by
  refine labelText_congr (Label.canvasWidth_setPart label name _) fun m row hrow => ?_
  rw [Label.part_modifyPart]
  by_cases hm : m = name
  · subst hm
    rw [if_pos rfl, hpart, sectionText_skip (h row hrow)]
  · rw [if_neg hm]

variable (data mode label requested) in
/-- A label has a text exactly if every element that shows something can be put on a line, each time
it is printed, and every line can be laid out: a single text at an infinite distance leaves none.
What shows nothing could as well not be on the label. -/
theorem labelText_iff_printable :
    ((∃ text, labelText data mode label requested = .ok text) ↔
      label.canvasWidth.isFinite = true ∧ ∀ name, ∀ row ∈ recordsOf data mode requested name,
        Printable data mode row (label.part name).elements) ∧
    ∀ (name : SectionName) (before after : List Element) (e : Element),
      (label.part name).elements = before ++ e :: after →
      (∀ row ∈ recordsOf data mode requested name, ¬ Shows data mode row e) →
      labelText data mode (label.modifyPart name ({ · with elements := before ++ after }))
        requested = labelText data mode label requested :=
  ⟨exists_labelText_iff, fun _ _ _ _ hpart h => labelText_skip hpart h⟩

def total : Element := textAt 0.0 0.0 "Total"

def underline : Element := { textAt 0.0 20.0 "line" with
  kind := .box, width := some 100.0, height := some 2.0, content := none }

def farBarcode : Element := { textAt (1.0 / 0.0) 0.0 "code" with kind := .barcode }

/-- A label with nothing below its header. -/
def headerLabel (elements : List Element) : Label :=
  ⟨⟨40.0, elements⟩, ⟨10.0, []⟩, ⟨20.0, []⟩, 104.0⟩

theorem farBarcode_left_out :
    (∃ text, labelText .standard .sample (headerLabel [total, underline, farBarcode]) 3 =
        .ok text) ∧
      labelText .standard .sample ((headerLabel [total, underline, farBarcode]).modifyPart .header
        ({ · with elements := [total, underline] })) 3 =
          labelText .standard .sample (headerLabel [total, underline, farBarcode]) 3 := by
  have h := labelText_iff_printable .standard .sample (headerLabel [total, underline, farBarcode]) 3
  have hprintable : ∀ name, ∀ row ∈ recordsOf .standard .sample 3 name,
      Printable .standard .sample row
        ((headerLabel [total, underline, farBarcode]).part name).elements := by
    intro name
    cases name <;> decide +kernel
  have hbarcode : ∀ row ∈ recordsOf .standard .sample 3 .header,
      ¬ Shows .standard .sample row farBarcode := by
    decide +kernel
  exact ⟨h.1.2 ⟨by decide, hprintable⟩,
    h.2 .header [total, underline] [] farBarcode rfl hbarcode⟩

def farText : Element := textAt (1.0 / 0.0) 0.0 "Far"

theorem farText_leaves_no_text :
    labelText .standard .template (headerLabel [farText, total]) 1 = .error .floorInfinity ∧
      labelText .standard .template (headerLabel [total]) 1 =
        .ok ("=== LINE PRINT MODE (FIXED WIDTH PREVIEW) ===\n" ++
          "Paper Width: 104mm (Approx 62 chars)\n\n" ++
          "--- HEADER ---\nTotal\n\n--- BODY ---\n\n--- FOOTER ---\n\n") := by
  decide +kernel

end ThermalLabel.LinePrint
