import ThermalLabel.Proofs.Printed
import ThermalLabel.Proofs.Text.Occurrence
import ThermalLabel.Proofs.Zpl.Compiled
import ThermalLabel.Proofs.Zpl.Layout
/-!
# How far sample data reach

What an element shows depends on the sample data only through its own data source: for the printer
not at all, on a sample through the record of its row and the shared values. So header and footer
do not see the records of rows, a body row sees its own record only, and of that only the sources
that the body is bound to. Both forms of a printed label keep to this.
-/

namespace ThermalLabel

namespace SampleData

variable {data data' : SampleData} {mode : Mode} {row row' : Option DataRecord} {e : Element}
  {elements : List Element}

/-- The values shared by whole labels are the same, in whichever order they are listed. -/
def SameShared (data data' : SampleData) : Prop :=
  ∀ source, data.shared.lookup source = data'.shared.lookup source

/-- Two records have the same values for the sources that elements are bound to. -/
def AgreeOn (elements : List Element) (row row' : Option DataRecord) : Prop :=
  ∀ e ∈ elements, ∀ source, boundSource? e = some source →
    row.bind (DataRecord.value? · source) = row'.bind (DataRecord.value? · source)

def ShowSame (data data' : SampleData) (mode : Mode) (elements : List Element)
    (row row' : Option DataRecord) : Prop :=
  ∀ e ∈ elements, data.contentOf e mode row = data'.contentOf e mode row'

theorem contentOf_of_not_bound (h : boundSource? e = none) :
    data.contentOf e mode row = e.content.getD "" := by
  rw [contentOf, h]

theorem contentOf_template {source : Text} (h : boundSource? e = some source) :
    data.contentOf e .template row = placeholder source := by
  rw [contentOf, h]
  rfl

theorem showSame_template (data data' : SampleData) (elements : List Element)
    (row row' : Option DataRecord) : ShowSame data data' .template elements row row' := by
  intro e _
  cases h : boundSource? e with
  | none => rw [contentOf_of_not_bound h, contentOf_of_not_bound h]
  | some source => rw [contentOf_template h, contentOf_template h]

theorem SameShared.value?_eq (h : SameShared data data') (source : Text) :
    data.shared.value? source = data'.shared.value? source :=
  Option.bind_congr fun name _ => h name

theorem AgreeOn.showSame (hrecord : AgreeOn elements row row') (hshared : SameShared data data') :
    ShowSame data data' .sample elements row row' := by
  intro e he
  cases h : boundSource? e with
  | none => rw [contentOf_of_not_bound h, contentOf_of_not_bound h]
  | some source =>
    simp only [contentOf, h, resolve, hrecord e he source h, hshared.value?_eq source]

theorem agreeOn_self (elements : List Element) (row : Option DataRecord) :
    AgreeOn elements row row := fun _ _ _ _ => rfl

end SampleData

open SampleData

namespace Zpl

variable {data data' : SampleData} {mode : Mode} {row row' : Option DataRecord}
  {elements : List Element} {label : Label}

theorem elementText_congr {e : Element} {offset : Float}
    (h : data.contentOf e mode row = data'.contentOf e mode row') :
    elementText data mode e ⟨offset, row⟩ = elementText data' mode e ⟨offset, row'⟩ := by
  simp only [elementText, elementCommands, fieldCommands, h]

theorem sectionText_congr {offset : Float} (h : ShowSame data data' mode elements row row') :
    sectionText data mode elements ⟨offset, row⟩ = sectionText data' mode elements ⟨offset, row'⟩ := by
  unfold sectionText
  congr 1
  apply List.map_congr_left
  intro e he
  simp only [fragment, elementText_congr (h e he)]

theorem rowText_congr {index : Nat}
    (h : ShowSame data data' mode label.body.elements (data.recordOf mode index)
      (data'.recordOf mode index)) :
    rowText data mode label index = rowText data' mode label index := by
  simp only [rowText, sectionText_congr h]

theorem printed_template (data data' : SampleData) (label : Label) (requested requested' : Int) :
    printed data .template label requested = printed data' .template label requested' := by
  have hshow := showSame_template data data'
  have hrows : rowText data .template label = rowText data' .template label :=
    funext fun i => rowText_congr (hshow _ _ _)
  simp only [printed, hrows, sectionText_congr (hshow _ none none), Mode.bodyRows]

theorem printed_sample_frame {requested : Int} {p p' : Printed} (hshared : SameShared data data')
    (h : printed data .sample label requested = .ok p)
    (h' : printed data' .sample label requested = .ok p') :
    p.opening = p'.opening ∧ p.header = p'.header ∧ p.footer = p'.footer := by
  simp only [printed, bind_eq_ok_iff] at h h'
  obtain ⟨height, hheight, heightDots, hdots, width, hwidth, rows, -, offset, hoffset, hp⟩ := h
  obtain ⟨height', hheight', heightDots', hdots', width', hwidth', rows', -, offset', hoffset',
    hp'⟩ := h'
  have hunbound (elements : List Element) :=
    (agreeOn_self elements (none : Option DataRecord)).showSame hshared
  cases hheight.symm.trans hheight'
  cases hdots.symm.trans hdots'
  cases hwidth.symm.trans hwidth'
  cases hoffset.symm.trans hoffset'
  cases hp
  cases hp'
  exact ⟨rfl, sectionText_congr (hunbound _), sectionText_congr (hunbound _)⟩

/-- The field data by which a bound element names its source to the printer. -/
def marker (e : Element) (source : Text) : Text :=
  if e.kind = .barcode ∧ e.barcodeKind = some .qr then "QA," ++ placeholder source
  else placeholder source

def markedField (e : Element) (source : Text) : Text := "^FD" ++ marker e source ++ "^FS"

theorem isDynamic_of_boundSource? {e : Element} {source : Text}
    (h : boundSource? e = some source) : e.isDynamic = true := by
  unfold boundSource? at h
  split at h
  · assumption
  · cases h

/-- However few characters an element may show, it names its source to the printer in full. -/
theorem fieldCommands_template {e : Element} {source : Text} {x y : Int} {field : List Command}
    (hbound : boundSource? e = some source) (hkind : e.kind = .text ∨ e.kind = .barcode)
    (h : fieldCommands data .template e row x y = .ok field) :
    ∃ c, field = [c, .fieldData (marker e source), .fieldEnd] := by
  rcases hkind with hkind | hkind
  · simp only [fieldCommands, hkind, textCommands, contentOf_template hbound, bind_eq_ok_iff] at h
    obtain ⟨size, -, hp⟩ := h
    cases hp
    have huncut : shownText .template e (placeholder source) = placeholder source := by
      unfold shownText
      cases e.maxChars <;> simp [isDynamic_of_boundSource? hbound]
    exact ⟨.font (.ofDegrees e.rotation) size size, by simp [marker, hkind, huncut]⟩
  · simp only [fieldCommands, hkind, barcodeCommands, contentOf_template hbound] at h
    split at h
    · rename_i hqr
      obtain ⟨m, -, hp⟩ := bind_eq_ok_iff.1 h
      cases hp
      exact ⟨.squareBarcode (max 1 (min maxMagnification m)), by simp [marker, hkind, hqr]⟩
    · rename_i hlinear
      have hkind' : e.barcodeKind ≠ some .qr := hlinear
      obtain ⟨height, -, hp⟩ := bind_eq_ok_iff.1 h
      cases hp
      exact ⟨.linearBarcode (.ofDegrees e.rotation) height (e.showLabel.getD false),
        by simp [marker, hkind']⟩

theorem markedField_occursIn {e : Element} {source text : Text} {place : Place}
    (hbound : boundSource? e = some source) (hkind : e.kind = .text ∨ e.kind = .barcode)
    (h : elementText data .template e place = .ok text) : OccursIn (markedField e source) text := by
  unfold elementText at h
  cases hcommands : elementCommands data .template e place with
  | error err =>
    rw [hcommands] at h
    cases h
  | ok commands =>
    rw [hcommands] at h
    cases h
    obtain ⟨x, y, field, hfield, rfl⟩ := exists_of_elementCommands hcommands
    obtain ⟨c, rfl⟩ := fieldCommands_template hbound hkind hfield
    refine ⟨(Command.fieldOrigin x y).written ++ c.written, "\n", ?_⟩
    simp only [writtenLine, List.map_cons, List.map_nil, Text.join_cons, Text.join_nil,
      Command.written, markedField, Text.append_assoc, Text.append_empty]

theorem elementText_occursIn {requested : Int} {document text : Text} {name : SectionName}
    {e : Element} {place : Place} (hrequested : requested.natAbs < 2 ^ 53)
    (h : documentText data mode label requested = .ok document)
    (he : e ∈ (label.part name).elements)
    (hplace : place ∈ placesOf data mode label (mode.bodyRows requested) name)
    (htext : elementText data mode e place = .ok text) : OccursIn text document := by
  have hfragment : fragment data mode e place = text := by rw [fragment, htext]
  have hsection : OccursIn text (sectionText data mode (label.part name).elements place) :=
    OccursIn.join (hfragment ▸ List.mem_map_of_mem he)
  have hprinted : OccursIn (sectionText data mode (label.part name).elements place)
      (printedSection data mode label (mode.bodyRows requested) name) :=
    OccursIn.join (List.mem_map_of_mem hplace)
  rw [documentText_eq data mode hrequested] at h
  obtain ⟨height, -, h⟩ := bind_eq_ok_iff.1 h
  obtain ⟨width, -, h⟩ := bind_eq_ok_iff.1 h
  cases h
  apply (hsection.trans hprinted).trans
  have hself := OccursIn.refl (printedSection data mode label (mode.bodyRows requested) name)
  unfold layout
  cases name with
  | header => exact (((hself.append_left _).append_right _).append_right _).append_right _
  | body => exact ((hself.append_left _).append_right _).append_right _
  | footer => exact (hself.append_left _).append_right _

end Zpl

namespace LinePrint

variable {data data' : SampleData} {mode : Mode} {row row' : Option DataRecord}
  {elements : List Element} {label : Label}

theorem sectionText_congr (h : ShowSame data data' mode elements row row') :
    sectionText data mode elements row = sectionText data' mode elements row' := by
  have hitems : (elements.mapM fun e => itemOf data mode e row) =
      elements.mapM fun e => itemOf data' mode e row' := by
    apply mapM_congr
    intro e he
    simp only [itemOf, characters, h e he]
  simp only [sectionText, hitems]

theorem printed_template (data data' : SampleData) (label : Label) (requested requested' : Int) :
    printed data .template label requested = printed data' .template label requested' := by
  have hshow := showSame_template data data'
  have hrows : rowText data .template label.body.elements =
      rowText data' .template label.body.elements :=
    funext fun i => sectionText_congr (hshow _ _ _)
  simp only [printed, hrows, sectionText_congr (hshow _ none none), Mode.bodyRows]

theorem printed_sample_frame {requested : Int} {p p' : Printed} (hshared : SameShared data data')
    (h : printed data .sample label requested = .ok p)
    (h' : printed data' .sample label requested = .ok p') :
    p.opening = p'.opening ∧ p.header = p'.header ∧ p.footer = p'.footer := by
  have hunbound (elements : List Element) := sectionText_congr
    ((agreeOn_self elements (none : Option DataRecord)).showSame hshared)
  simp only [printed, bind_eq_ok_iff] at h h'
  obtain ⟨columns, hcolumns, header, hheader, rows, -, footer, hfooter, hp⟩ := h
  obtain ⟨columns', hcolumns', header', hheader', rows', -, footer', hfooter', hp'⟩ := h'
  rw [hunbound] at hheader hfooter
  cases hcolumns.symm.trans hcolumns'
  cases hheader.symm.trans hheader'
  cases hfooter.symm.trans hfooter'
  cases hp
  cases hp'
  exact ⟨rfl, rfl, rfl⟩

end LinePrint

/-- Rows that come out the same one by one are the same on both labels. -/
theorem rows_getElem?_congr {f g : Nat → Except NumberError Text} {n : Nat}
    {rows rows' : List Text} (hrows : (List.range n).mapM f = .ok rows)
    (hrows' : (List.range n).mapM g = .ok rows') {i : Nat} (h : f i = g i) :
    rows[i]? = rows'[i]? := by
  have hi := map_ok_getElem?_of_mapM hrows i
  have hi' := map_ok_getElem?_of_mapM hrows' i
  have hsame : (List.range n)[i]?.map f = (List.range n)[i]?.map g := by
    by_cases hlt : i < n
    · simp [hlt, h]
    · simp [hlt]
  have hinjective : Function.Injective (Except.ok : Text → Except NumberError Text) :=
    fun _ _ => Except.ok.inj
  apply Option.map_injective hinjective
  rw [hi, hi', hsame]

/-- Sample data stay in their scope, in a document and in lines alike. (1) For the printer neither
they nor the number of rows matter, and every bound element that is printed names its source in
full. (2) On samples the size, the header and the footer do not depend on the records of rows.
(3) A body row depends on its own record only, and on no source but those the body is bound to. -/
theorem sampleData_stay_in_scope (label : Label) :
    (∀ data mode requested,
      Zpl.documentText data mode label requested =
          (Zpl.printed data mode label requested).map Zpl.joined ∧
        LinePrint.labelText data mode label requested =
          (LinePrint.printed data mode label requested).map LinePrint.joined) ∧
    (∀ data data' requested requested',
      Zpl.documentText data .template label requested =
          Zpl.documentText data' .template label requested' ∧
        LinePrint.labelText data .template label requested =
          LinePrint.labelText data' .template label requested') ∧
    (∀ data requested document, Zpl.documentText data .template label requested = .ok document →
      ∀ name, ∀ e ∈ (label.part name).elements, ∀ source, boundSource? e = some source →
        e.kind = .text ∨ e.kind = .barcode →
        ∀ place ∈ Zpl.placesOf data .template label 1 name, ∀ text,
          Zpl.elementText data .template e place = .ok text →
            OccursIn text document ∧ OccursIn (Zpl.markedField e source) text) ∧
    ∀ data data', SameShared data data' →
      (∀ requested p p', Zpl.printed data .sample label requested = .ok p →
        Zpl.printed data' .sample label requested = .ok p' →
          p.opening = p'.opening ∧ p.header = p'.header ∧ p.footer = p'.footer) ∧
      (∀ requested p p', LinePrint.printed data .sample label requested = .ok p →
        LinePrint.printed data' .sample label requested = .ok p' →
          p.opening = p'.opening ∧ p.header = p'.header ∧ p.footer = p'.footer) ∧
      ∀ i : Nat, AgreeOn label.body.elements (Zpl.recordInTurn data .sample i)
          (Zpl.recordInTurn data' .sample i) →
        Zpl.rowText data .sample label i = Zpl.rowText data' .sample label i ∧
        LinePrint.rowText data .sample label.body.elements i =
          LinePrint.rowText data' .sample label.body.elements i ∧
        (∀ requested p p', Zpl.printed data .sample label requested = .ok p →
          Zpl.printed data' .sample label requested = .ok p' → p.rows[i]? = p'.rows[i]?) ∧
        ∀ requested p p', LinePrint.printed data .sample label requested = .ok p →
          LinePrint.printed data' .sample label requested = .ok p' → p.rows[i]? = p'.rows[i]? := by
  refine ⟨?_, ?_, ?_, ?_⟩
  · intro data mode requested
    exact ⟨Zpl.documentText_eq_printed .., LinePrint.labelText_eq_printed ..⟩
  · intro data data' requested requested'
    simp only [Zpl.documentText_eq_printed, LinePrint.labelText_eq_printed]
    rw [Zpl.printed_template data data' label requested requested',
      LinePrint.printed_template data data' label requested requested']
    exact ⟨rfl, rfl⟩
  · intro data requested document h name e he source hbound hkind place hplace text htext
    have hone : Zpl.documentText data .template label 1 = .ok document := h
    exact ⟨Zpl.elementText_occursIn (by decide) hone he hplace htext,
      Zpl.markedField_occursIn hbound hkind htext⟩
  · intro data data' hshared
    refine ⟨fun _ _ _ => Zpl.printed_sample_frame hshared,
      fun _ _ _ => LinePrint.printed_sample_frame hshared, ?_⟩
    intro i hrecord
    rw [← Zpl.recordOf_eq, ← Zpl.recordOf_eq] at hrecord
    have hshow := hrecord.showSame hshared
    have hdocument : Zpl.rowText data .sample label i = Zpl.rowText data' .sample label i :=
      Zpl.rowText_congr hshow
    have hlines : LinePrint.rowText data .sample label.body.elements i =
        LinePrint.rowText data' .sample label.body.elements i :=
      LinePrint.sectionText_congr hshow
    refine ⟨hdocument, hlines, ?_, ?_⟩
    · intro requested p p' h h'
      exact rows_getElem?_congr (Zpl.rows_of_printed h) (Zpl.rows_of_printed h') hdocument
    · intro requested p p' h h'
      exact rows_getElem?_congr (LinePrint.rows_of_printed h) (LinePrint.rows_of_printed h') hlines

/-- A text that shows no more than three characters of its data source. -/
def boundText (source : Text) : Element :=
  { Zpl.farBox with
    kind := .text
    x := 0.0
    isDynamic := true
    dataSource := some source
    maxChars := some 3 }

def totalAndQuantities : Label :=
  ⟨⟨10.0, [boundText "Invoice.Total"]⟩, ⟨5.0, [boundText "Line.Quantity"]⟩, ⟨0.0, []⟩, 50.0⟩

/-- Sample data with a single row, which has nothing but a quantity. -/
def singleQuantity : SampleData := ⟨[[("Line.Quantity", "2")]], sampleShared⟩

theorem total_and_quantities_stay_in_scope :
    (∃ document text,
      Zpl.documentText .standard .template totalAndQuantities 1 = .ok document ∧
        OccursIn text document ∧ OccursIn "^FD[Invoice.Total]^FS" text) ∧
    SameShared .standard singleQuantity ∧
    (∃ p p', Zpl.printed .standard .sample totalAndQuantities 2 = .ok p ∧
      Zpl.printed singleQuantity .sample totalAndQuantities 2 = .ok p' ∧ p.header = p'.header ∧
        p.rows[0]? = p'.rows[0]?) := by
  obtain ⟨-, -, hmarked, hsample⟩ := sampleData_stay_in_scope totalAndQuantities
  have hshared : SameShared .standard singleQuantity := fun _ => rfl
  have hagree : AgreeOn totalAndQuantities.body.elements
      (Zpl.recordInTurn .standard .sample 0) (Zpl.recordInTurn singleQuantity .sample 0) := by
    intro e he source hsource
    cases List.mem_singleton.1 he
    cases hsource
    rfl
  obtain ⟨hframe, -, hrow⟩ := hsample .standard singleQuantity hshared
  refine ⟨?_, hshared, ?_⟩
  · obtain ⟨document, hdocument⟩ : ∃ document,
        Zpl.documentText .standard .template totalAndQuantities 1 = .ok document :=
      exists_eq_ok (by decide +kernel)
    obtain ⟨text, htext⟩ : ∃ text, Zpl.elementText .standard .template
        (boundText "Invoice.Total") ⟨0.0, none⟩ = .ok text :=
      exists_eq_ok (by decide +kernel)
    have hmarked := hmarked .standard 1 document hdocument .header (boundText "Invoice.Total")
      (List.mem_singleton.2 rfl) "Invoice.Total" rfl (.inl rfl) ⟨0.0, none⟩
      (List.mem_singleton.2 rfl) text htext
    exact ⟨document, text, hdocument, hmarked⟩
  · obtain ⟨p, hp⟩ : ∃ p, Zpl.printed .standard .sample totalAndQuantities 2 = .ok p :=
      exists_eq_ok (by decide +kernel)
    obtain ⟨p', hp'⟩ : ∃ p, Zpl.printed singleQuantity .sample totalAndQuantities 2 = .ok p :=
      exists_eq_ok (by decide +kernel)
    exact ⟨p, p', hp, hp', (hframe 2 p p' hp hp').2.1, (hrow 0 hagree).2.2.1 2 p p' hp hp'⟩

end ThermalLabel
