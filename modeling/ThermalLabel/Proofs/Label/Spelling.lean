import ThermalLabel.Label.ImageEncoding
import ThermalLabel.Proofs.Schema.Spelling
/-!
# Spelling and noise

What a bitmap, an element, a section, a label or an encoded image is read from is unchanged by
members that it does not have, by the order of its members, and by what stands under the second
spelling of a field beside the first, at every depth. A member under its first spelling moved to the
second leaves the value that is read, and whether there is one.
-/

namespace ThermalLabel

open Schema

/-- What an object or a list may be read as. -/
inductive Shape where
  | bitmap
  | element
  | labelSection
  | label
  | encoding
  | list (item : Shape)
deriving DecidableEq

namespace Shape

/-- What is read. -/
def Value : Shape → Type
  | bitmap => Bitmap
  | element => Element
  | labelSection => LabelSection
  | label => Label
  | encoding => ImageEncoding
  | list item => List item.Value

def read (origin : Origin) : (shape : Shape) → Json → Checked shape.Value
  | bitmap => Bitmap.read origin
  | element => Element.read origin
  | labelSection => LabelSection.read origin
  | label => Label.read origin
  | encoding => ImageEncoding.read origin
  | list item => readList (item.read origin)

/-- The fields of an object of the shape. -/
def fields : Shape → List FieldName
  | bitmap => [Bitmap.Field.payload, Bitmap.Field.totalBytes, Bitmap.Field.bytesPerRow]
  | element =>
    [Element.Field.id, Element.Field.kind, Element.Field.x, Element.Field.y, Element.Field.width,
      Element.Field.height, Element.Field.content, Element.Field.isDynamic,
      Element.Field.dataSource, Element.Field.imageKey, Element.Field.fontSize,
      Element.Field.fontBold, Element.Field.rotation, Element.Field.maxChars,
      Element.Field.barcodeKind, Element.Field.showLabel, Element.Field.bitmap,
      Element.Field.imageData]
  | labelSection => [LabelSection.Field.height, LabelSection.Field.elements]
  | label => [Label.Field.header, Label.Field.body, Label.Field.footer, Label.Field.canvasWidth]
  | encoding =>
    [ImageEncoding.Field.payload, Bitmap.Field.totalBytes, Bitmap.Field.bytesPerRow,
      ImageEncoding.Field.width, ImageEncoding.Field.height, ImageEncoding.Field.preview]
  | list _ => []

/-- The fields that hold objects or lists in their turn. -/
def parts : Shape → List (FieldName × Shape)
  | element => [(Element.Field.bitmap, bitmap)]
  | labelSection => [(LabelSection.Field.elements, list element)]
  | label =>
    [(Label.Field.header, labelSection), (Label.Field.body, labelSection),
      (Label.Field.footer, labelSection)]
  | _ => []

/-- The keys under which an object of the shape is looked into. -/
def Knows (shape : Shape) (key : String) : Prop :=
  ∃ f ∈ shape.fields, ∃ spelling : Spelling, f.spelled spelling = key

theorem fields_apart {shape : Shape} : ∀ f ∈ shape.fields, ∀ g ∈ shape.fields, f ≠ g →
    f.joined ≠ g.joined ∧ f.joined ≠ g.underscored ∧ f.underscored ≠ g.joined ∧
      f.underscored ≠ g.underscored := by
  cases shape with
  | list item =>
    intro f hf
    cases hf
  | _ => decide +kernel

theorem eq_of_spelled_eq {shape : Shape} {f g : FieldName} (hf : f ∈ shape.fields)
    (hg : g ∈ shape.fields) {i j : Spelling} (h : f.spelled i = g.spelled j) : f = g := by
  by_cases hne : f = g
  · exact hne
  · obtain ⟨hjj, hju, huj, huu⟩ := fields_apart f hf g hg hne
    cases i <;> cases j
    · exact absurd h hjj
    · exact absurd h hju
    · exact absurd h huj
    · exact absurd h huu

theorem mem_fields_of_mem_parts {shape inner : Shape} {f : FieldName}
    (h : (f, inner) ∈ shape.parts) : f ∈ shape.fields := by
  have hfields : ∀ p ∈ shape.parts, p.1 ∈ shape.fields := by
    cases shape with
    | list item =>
      intro p hp
      cases hp
    | _ => decide +kernel
  exact hfields _ h

end Shape

/-- Two documents that differ in spelling and noise only. Read for their whole answer, no field
may change its spelling. -/
inductive Alike : View → Shape → Json → Json → Prop where
  /-- A member that no field of the object looks at. -/
  | noise (view : View) {shape : Shape} {key : String} (v : Json)
      (before after : List (String × Json)) (h : ¬ shape.Knows key) :
      Alike view shape (.obj (before ++ (key, v) :: after)) (.obj (before ++ after))
  | reordered (view : View) (shape : Shape) {members others : List (String × Json)}
      (h : members.Perm others) (hkeys : (members.map Prod.fst).Nodup) :
      Alike view shape (.obj members) (.obj others)
  /-- A member under the second spelling of a field that is there under the first. -/
  | shadowed (view : View) {shape : Shape} {f : FieldName} (v : Json)
      {before after : List (String × Json)} (hf : f ∈ shape.fields)
      (hspelled : f.joined ≠ f.underscored) (h : f.joined ∈ (before ++ after).map Prod.fst) :
      Alike view shape (.obj (before ++ (f.underscored, v) :: after)) (.obj (before ++ after))
  /-- A member under the first spelling of a field moved to the second, which is free. -/
  | renamed {shape : Shape} {f : FieldName} (v : Json) {before after : List (String × Json)}
      (hf : f ∈ shape.fields) (hfirst : f.joined ∉ (before ++ after).map Prod.fst)
      (hsecond : f.underscored ∉ (before ++ after).map Prod.fst) :
      Alike .value shape (.obj (before ++ (f.joined, v) :: after))
        (.obj (before ++ (f.underscored, v) :: after))
  | part {view : View} {shape inner : Shape} {f : FieldName} (spelling : Spelling) {v w : Json}
      (before after : List (String × Json)) (hf : (f, inner) ∈ shape.parts)
      (h : Alike view inner v w) :
      Alike view shape (.obj (before ++ (f.spelled spelling, v) :: after))
        (.obj (before ++ (f.spelled spelling, w) :: after))
  | item {view : View} {shape : Shape} {v w : Json} (before after : List Json)
      (h : Alike view shape v w) :
      Alike view (.list shape) (.arr (before ++ v :: after)) (.arr (before ++ w :: after))
  | refl (view : View) (shape : Shape) (v : Json) : Alike view shape v v
  | symm {view : View} {shape : Shape} {v w : Json} (h : Alike view shape v w) :
      Alike view shape w v
  | trans {view : View} {shape : Shape} {u v w : Json} (huv : Alike view shape u v)
      (hvw : Alike view shape v w) : Alike view shape u w

namespace Shape

variable {view : View} {origin : Origin} {shape inner : Shape} {f : FieldName} {v w : Json}
  {members others : List (String × Json)} {α : Type} {check : Json → Checked α}

/-- Two values of a field that are the same or, where it holds a part, are read alike as that. -/
def SameValue (view : View) (origin : Origin) (shape : Shape) (f : FieldName) (v w : Json) : Prop :=
  v = w ∨ ∃ inner, (f, inner) ∈ shape.parts ∧ (v = .null ↔ w = .null) ∧
    Same view (inner.read origin v) (inner.read origin w)

/-- Every field of the shape finds the same in two objects, up to how its value is read. -/
def FindsAlike (view : View) (origin : Origin) (shape : Shape)
    (members others : List (String × Json)) : Prop :=
  ∀ f ∈ shape.fields, f.FindAlike view (shape.SameValue view origin f) members others

theorem same_of_plain (hplain : ∀ p ∈ shape.parts, p.1 ≠ f)
    (h : shape.SameValue view origin f v w) : Same view (check v) (check w) := by
  rcases h with rfl | ⟨inner, hinner, -⟩
  · exact .same _ _
  · exact absurd rfl (hplain _ hinner)

theorem same_of_part (hpart : ∀ p ∈ shape.parts, p.1 = f → p.2 = inner)
    (h : shape.SameValue view origin f v w) :
    (v = .null ↔ w = .null) ∧ Same view (inner.read origin v) (inner.read origin w) := by
  rcases h with rfl | ⟨other, hother, hnull, hsame⟩
  · exact ⟨Iff.rfl, .same _ _⟩
  · obtain rfl : other = inner := hpart _ hother rfl
    exact ⟨hnull, hsame⟩

theorem required_plain (h : shape.FindsAlike view origin members others) (hf : f ∈ shape.fields)
    (hplain : ∀ p ∈ shape.parts, p.1 ≠ f) :
    Same view (required f check members) (required f check others) :=
  required_same (h f hf) fun _ _ => same_of_plain hplain

theorem withDefault_plain {default : α} (h : shape.FindsAlike view origin members others)
    (hf : f ∈ shape.fields) (hplain : ∀ p ∈ shape.parts, p.1 ≠ f) :
    Same view (withDefault f default check members) (withDefault f default check others) :=
  withDefault_same (h f hf) fun _ _ => same_of_plain hplain

theorem bitmap_same (h : bitmap.FindsAlike view origin members others) :
    Same view (Bitmap.ofMembers members) (Bitmap.ofMembers others) := by
  have field {α : Type} (check : Json → Checked α) (f : FieldName) (hf : f ∈ bitmap.fields) :
      Same view (required f check members) (required f check others) :=
    required_plain h hf fun p hp => by cases hp
  have hpayload := field readText Bitmap.Field.payload (by decide)
  have htotalBytes := field readNat Bitmap.Field.totalBytes (by decide)
  have hbytesPerRow := field readNat Bitmap.Field.bytesPerRow (by decide)
  exact ((hpayload.map _).seq htotalBytes).seq hbytesPerRow

theorem encoding_same (h : encoding.FindsAlike view origin members others) :
    Same view (ImageEncoding.ofMembers members) (ImageEncoding.ofMembers others) := by
  have field {α : Type} (check : Json → Checked α) (f : FieldName) (hf : f ∈ encoding.fields) :
      Same view (required f check members) (required f check others) :=
    required_plain h hf fun p hp => by cases hp
  have hpayload := field readText ImageEncoding.Field.payload (by decide)
  have htotalBytes := field readInt Bitmap.Field.totalBytes (by decide)
  have hbytesPerRow := field readInt Bitmap.Field.bytesPerRow (by decide)
  have hwidth := field readInt ImageEncoding.Field.width (by decide)
  have hheight := field readInt ImageEncoding.Field.height (by decide)
  have hpreview := field readText ImageEncoding.Field.preview (by decide)
  exact (((((hpayload.map _).seq htotalBytes).seq hbytesPerRow).seq hwidth).seq hheight).seq
    hpreview

theorem element_same (h : element.FindsAlike view origin members others) :
    Same view (Element.ofMembers origin members) (Element.ofMembers origin others) := by
  have hid : Same view (required Element.Field.id readText members)
      (required Element.Field.id readText others) :=
    required_plain h (by decide) (by decide)
  have field {α : Type} (default : α) (check : Json → Checked α) (f : FieldName)
      (hf : f ∈ element.fields ∧ f ≠ Element.Field.bitmap) :
      Same view (withDefault f default check members) (withDefault f default check others) :=
    withDefault_plain h hf.1 fun p hp => by
      rw [List.mem_singleton.1 hp]
      exact hf.2.symm
  have hbitmap : Same view
      (withDefault Element.Field.bitmap none (readOptional (Bitmap.read origin)) members)
      (withDefault Element.Field.bitmap none (readOptional (Bitmap.read origin)) others) := by
    refine withDefault_same (h _ (by decide)) fun v w hvw => ?_
    have hpart : ∀ p ∈ element.parts, p.1 = Element.Field.bitmap → p.2 = bitmap := by decide
    obtain ⟨hnull, hsame⟩ := same_of_part hpart hvw
    exact hsame.readOptional hnull
  have hfields : Same view (Element.fieldsOf origin members) (Element.fieldsOf origin others) :=
    hid.map _ |>.seq (field _ _ Element.Field.kind (by decide))
      |>.seq (field _ _ Element.Field.x (by decide))
      |>.seq (field _ _ Element.Field.y (by decide))
      |>.seq (field _ _ Element.Field.width (by decide))
      |>.seq (field _ _ Element.Field.height (by decide))
      |>.seq (field _ _ Element.Field.content (by decide))
      |>.seq (field _ _ Element.Field.isDynamic (by decide))
      |>.seq (field _ _ Element.Field.dataSource (by decide))
      |>.seq (field _ _ Element.Field.imageKey (by decide))
      |>.seq (field _ _ Element.Field.fontSize (by decide))
      |>.seq (field _ _ Element.Field.fontBold (by decide))
      |>.seq (field _ _ Element.Field.rotation (by decide))
      |>.seq (field _ _ Element.Field.maxChars (by decide))
      |>.seq (field _ _ Element.Field.barcodeKind (by decide))
      |>.seq (field _ _ Element.Field.showLabel (by decide))
      |>.seq hbitmap
      |>.seq (field _ _ Element.Field.imageData (by decide))
  exact hfields.andThen Element.checkImageSources

theorem labelSection_same (h : labelSection.FindsAlike view origin members others) :
    Same view (LabelSection.ofMembers origin members) (LabelSection.ofMembers origin others) := by
  have hheight : Same view (required LabelSection.Field.height readFloat members)
      (required LabelSection.Field.height readFloat others) :=
    required_plain h (by decide) (by decide)
  have hpart : ∀ p ∈ labelSection.parts, p.1 = LabelSection.Field.elements → p.2 = list element := by
    decide
  have helements : Same view
      (withDefault LabelSection.Field.elements [] (readList (Element.read origin)) members)
      (withDefault LabelSection.Field.elements [] (readList (Element.read origin)) others) :=
    withDefault_same (h _ (by decide)) fun v w hvw => (same_of_part hpart hvw).2
  exact (hheight.map _).seq helements

theorem label_same (h : label.FindsAlike view origin members others) :
    Same view (Label.ofMembers origin members) (Label.ofMembers origin others) := by
  have field (default : LabelSection) (f : FieldName)
      (hf : f ∈ label.fields ∧ ∀ p ∈ label.parts, p.1 = f → p.2 = labelSection) :
      Same view (withDefault f default (LabelSection.read origin) members)
        (withDefault f default (LabelSection.read origin) others) :=
    withDefault_same (h f hf.1) fun v w hvw => (same_of_part hf.2 hvw).2
  have hcanvasWidth : Same view
      (withDefault Label.Field.canvasWidth Label.blank.canvasWidth readFloat members)
      (withDefault Label.Field.canvasWidth Label.blank.canvasWidth readFloat others) :=
    withDefault_plain h (by decide) (by decide)
  have hheader := field Label.blank.header Label.Field.header (by decide)
  have hbody := field Label.blank.body Label.Field.body (by decide)
  have hfooter := field Label.blank.footer Label.Field.footer (by decide)
  exact (((hheader.map _).seq hbody).seq hfooter).seq hcanvasWidth

/-- Objects in which every field finds the same are read alike. -/
theorem read_obj_same (h : shape.FindsAlike view origin members others) :
    Same view (shape.read origin (.obj members)) (shape.read origin (.obj others)) := by
  cases shape with
  | bitmap => exact bitmap_same h
  | element => exact element_same h
  | labelSection => exact labelSection_same h
  | label => exact label_same h
  | encoding => exact encoding_same h
  | list item => exact .same _ _

end Shape

namespace Alike

variable {view : View} {origin : Origin} {shape : Shape} {v w : Json}

/-- Only an object or a list has something else beside it that it differs from in noise. -/
theorem eq_null_iff (h : Alike view shape v w) : v = .null ↔ w = .null := by
  induction h with
  | noise => simp
  | reordered => simp
  | shadowed => simp
  | renamed => simp
  | part => simp
  | item => simp
  | refl => rfl
  | symm _ ih => exact ih.symm
  | trans _ _ ih ih' => exact ih.trans ih'

theorem read_same (h : Alike view shape v w) :
    Same view (shape.read origin v) (shape.read origin w) := by
  have hrefl (view : View) (shape : Shape) (f : FieldName) (u : Json) :
      shape.SameValue view origin f u u := Or.inl rfl
  induction h with
  | noise view v before after h =>
    refine Shape.read_obj_same fun f hf => FieldName.findAlike_insert (hrefl _ _ f) ?_
    intro spelling hkey
    exact h ⟨f, hf, spelling, hkey⟩
  | reordered view shape h hkeys =>
    exact Shape.read_obj_same fun f hf => FieldName.findAlike_perm (hrefl _ _ f) h hkeys
  | @shadowed view shape f v before after hf hspelled h =>
    refine Shape.read_obj_same fun g hg => ?_
    by_cases hgf : g = f
    · subst hgf
      exact FieldName.findAlike_shadowed (hrefl _ _ g) hspelled h
    · exact FieldName.findAlike_insert (hrefl _ _ g) fun i hkey =>
        hgf (Shape.eq_of_spelled_eq hg hf (j := .underscored) hkey)
  | @renamed shape f v before after hf hfirst hsecond =>
    refine Shape.read_obj_same fun g hg => ?_
    by_cases hgf : g = f
    · subst hgf
      exact FieldName.findAlike_rename (hrefl _ _ g) hfirst hsecond
    · exact FieldName.findAlike_rekey (hrefl _ _ g)
        (fun i hkey => hgf (Shape.eq_of_spelled_eq hg hf (j := .joined) hkey))
        (fun i hkey => hgf (Shape.eq_of_spelled_eq hg hf (j := .underscored) hkey))
  | @part view shape inner f spelling v w before after hf h ih =>
    refine Shape.read_obj_same fun g hg => FieldName.findAlike_replace (hrefl _ _ g) ?_
    intro i hkey
    obtain rfl : g = f := Shape.eq_of_spelled_eq hg (Shape.mem_fields_of_mem_parts hf) hkey
    exact Or.inr ⟨inner, hf, h.eq_null_iff, ih⟩
  | item before after h ih => exact ih.readList before after
  | refl => exact .same _ _
  | symm _ ih => exact ih.symm
  | trans _ _ ih ih' => exact ih.trans ih'

/-- Documents that differ in noise are read the same, with the same issues in the same order.
Where spellings differ as well, the same is read from both, and one is refused exactly when the other
is. -/
theorem read_alike (origin : Origin) (shape : Shape) (v w : Json) :
    (Alike .report shape v w → shape.read origin v = shape.read origin w) ∧
      (Alike .value shape v w →
        ∀ a, shape.read origin v = .ok a ↔ shape.read origin w = .ok a) :=
  ⟨fun h => Same.report_iff.1 h.read_same, fun h => Same.value_iff.1 h.read_same⟩

/-- A body with one image, whose bitmap has the members given. -/
def imageDocument (bitmapMembers : List (String × Json)) : Json := .obj
  [("body", .obj
    [("height", .int 10),
      ("elements", .arr [.obj
        [("id", .str "logo"), ("type", .str "image"), ("zplImage", .obj bitmapMembers)]])])]

theorem alike_imageDocument {view : View} {members others : List (String × Json)}
    (h : Alike view .bitmap (.obj members) (.obj others)) :
    Alike view .label (imageDocument members) (imageDocument others) := by
  have helement := @Alike.part view .element .bitmap Element.Field.bitmap .joined _ _
    [("id", .str "logo"), ("type", .str "image")] [] (by decide) h
  have hsection := @Alike.part view .labelSection (.list .element) LabelSection.Field.elements
    .joined _ _ [("height", .int 10)] [] (by decide) (.item [] [] helement)
  exact @Alike.part view .label .labelSection Label.Field.body .joined _ _ [] [] (by decide) hsection

/-- A size that is no number under the second spelling is not seen beside the first, and moving the
first to the second is seen only where the size is refused. -/
theorem imageDocument_reads_alike :
    Label.read .value (imageDocument
        [("hex", .str "F0"), ("totalBytes", .int 1), ("total_bytes", .null),
          ("bytesPerRow", .int 1)]) =
      Label.read .value (imageDocument
        [("hex", .str "F0"), ("totalBytes", .int 1), ("bytesPerRow", .int 1)]) ∧
    ∀ label, Label.read .value (imageDocument
          [("hex", .str "F0"), ("totalBytes", .int 1), ("bytesPerRow", .int 1)]) = .ok label ↔
        Label.read .value (imageDocument
          [("hex", .str "F0"), ("total_bytes", .int 1), ("bytesPerRow", .int 1)]) = .ok label := by
  have hshadowed : Alike .report .bitmap
      (.obj [("hex", .str "F0"), ("totalBytes", .int 1), ("total_bytes", .null),
        ("bytesPerRow", .int 1)])
      (.obj [("hex", .str "F0"), ("totalBytes", .int 1), ("bytesPerRow", .int 1)]) :=
    @Alike.shadowed .report .bitmap Bitmap.Field.totalBytes .null
      [("hex", .str "F0"), ("totalBytes", .int 1)] [("bytesPerRow", .int 1)]
      (by decide) (by decide) (by decide)
  have hrenamed : Alike .value .bitmap
      (.obj [("hex", .str "F0"), ("totalBytes", .int 1), ("bytesPerRow", .int 1)])
      (.obj [("hex", .str "F0"), ("total_bytes", .int 1), ("bytesPerRow", .int 1)]) :=
    @Alike.renamed .bitmap Bitmap.Field.totalBytes (.int 1) [("hex", .str "F0")]
      [("bytesPerRow", .int 1)] (by decide) (by decide) (by decide)
  exact ⟨(read_alike .value .label _ _).1 (alike_imageDocument hshadowed),
    (read_alike .value .label _ _).2 (alike_imageDocument hrenamed)⟩

end Alike
end ThermalLabel
