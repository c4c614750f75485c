import ThermalLabel.Proofs.Label.Reading
/-!
# Reading what was written

A label written as a document reads back as itself, in either spelling and wherever the document
comes from, as long as each of its elements takes its picture from one place.
-/

namespace ThermalLabel

namespace Schema

variable {α : Type} {check : Json → Checked α} {write : α → Json} {f : FieldName}
  {members : List (String × Json)} {key : String} {v : Json} {a : α}

theorem required_eq_ok_iff (h : f.find? members = some (key, v)) :
    required f check members = .ok a ↔ check v = .ok a := by
  simp only [required, h, Checked.within_eq_ok_iff]

theorem required_of_find? (h : f.find? members = some (key, v)) (hv : check v = .ok a) :
    required f check members = .ok a :=
  (required_eq_ok_iff h).2 hv

theorem withDefault_of_find? {default : α} (h : f.find? members = some (key, v))
    (hv : check v = .ok a) : withDefault f default check members = .ok a := by
  simp only [withDefault, h, hv, Checked.within_ok]

theorem readOptional_of_ne_null (hnull : v ≠ .null) (hv : check v = .ok a) :
    readOptional check v = .ok (some a) := by
  cases v with
  | null => exact absurd rfl hnull
  | _ => exact congrArg (Checked.map some) hv

theorem readOptional_ofOption (hwrite : ∀ a, check (write a) = .ok a)
    (hnull : ∀ a, write a ≠ .null) (o : Option α) :
    readOptional check (.ofOption write o) = .ok o := by
  cases o with
  | none => rfl
  | some a => exact readOptional_of_ne_null (hnull a) (hwrite a)

@[simp] theorem readFloat_float (x : Float) : readFloat (.float x) = .ok x := rfl

@[simp] theorem readInt_int (n : Int) : readInt (.int n) = .ok n := rfl

theorem readNat_int_eq_ok_iff {n : Int} {m : Nat} : readNat (.int n) = .ok m ↔ n = m := by
  simp only [readNat, readIntFrom, readInt_int, Checked.andThen]
  by_cases hn : 0 ≤ n
  · rw [if_pos hn, Checked.map_ok, Checked.ok.injEq]
    omega
  · rw [if_neg hn]
    simp only [Checked.fault, Checked.map_bad, reduceCtorEq, false_iff]
    omega

@[simp] theorem readNat_int (n : Nat) : readNat (.int n) = .ok n := readNat_int_eq_ok_iff.2 rfl

theorem readName_str {names : List (String × α)} {name : String}
    (h : names.lookup name = some a) : readName names (.str name) = .ok a := by
  simp only [readName, readSpelling, Text.characters?, namedBy, h]

theorem readList_map {l : List α} (h : ∀ a ∈ l, check (write a) = .ok a) :
    readList check (.arr (l.map write)) = .ok l := by
  have heach (start : Nat) : Checked.eachFrom check start (l.map write) = .ok l := by
    induction l generalizing start with
    | nil => rfl
    | cons a l ih =>
      have ha := h a List.mem_cons_self
      have hl := ih (fun b hb => h b (List.mem_cons_of_mem a hb)) (start + 1)
      simp only [List.map_cons, Checked.eachFrom, ha, hl, Checked.within_ok, Checked.map_eq,
        Checked.map_ok, Checked.seq_eq, Checked.seq_ok_ok]
  exact heach 0

end Schema

open Schema

/-- A field that was written where it is found, or as null where there is no value. -/
theorem optional_of_find? {α : Type} {check : Json → Checked α} {write : α → Json} {f : FieldName}
    {members : List (String × Json)} {key : String} {o : Option α}
    (h : f.find? members = some (key, .ofOption write o)) (hwrite : ∀ a, check (write a) = .ok a)
    (hnull : ∀ a, write a ≠ .null) : Element.optional f check members = .ok o :=
  withDefault_of_find? h (readOptional_ofOption hwrite hnull o)

namespace Bitmap

theorem read_toJson (origin : Origin) (spelling : Spelling) (b : Bitmap) :
    read origin (b.toJson spelling) = .ok b := by
  refine ofMembers_eq_ok_iff.2 ?_
  cases spelling
  · exact ⟨required_of_find? rfl rfl, required_of_find? rfl (readNat_int b.totalBytes),
      required_of_find? rfl (readNat_int b.bytesPerRow)⟩
  · exact ⟨required_of_find? rfl rfl, required_of_find? rfl (readNat_int b.totalBytes),
      required_of_find? rfl (readNat_int b.bytesPerRow)⟩

end Bitmap

namespace Element

/-- The fields of an element are found where they were written. -/
theorem fieldsOf_toMembers (origin : Origin) (spelling : Spelling) (e : Element) :
    fieldsOf origin (e.toMembers spelling) = .ok e := by
  have hfloat : ∀ x, Json.float x ≠ .null := fun _ => Json.noConfusion
  have htext : ∀ s, Json.str s ≠ .null := fun _ => Json.noConfusion
  have hbool : ∀ b, Json.bool b ≠ .null := fun _ => Json.noConfusion
  have hint : ∀ n, Json.int n ≠ .null := fun _ => Json.noConfusion
  have hkind := readName_str (ElementKind.lookup_name e.kind)
  have hbarcode : ∀ k : BarcodeKind, readName BarcodeKind.names (.str k.name) = .ok k :=
    fun k => readName_str (BarcodeKind.lookup_name k)
  rw [fieldsOf_eq_ok_iff]
  cases spelling
  all_goals exact ⟨required_of_find? rfl rfl, withDefault_of_find? rfl hkind,
    withDefault_of_find? rfl rfl, withDefault_of_find? rfl rfl,
    optional_of_find? rfl readFloat_float hfloat, optional_of_find? rfl readFloat_float hfloat,
    optional_of_find? rfl (fun _ => rfl) htext, withDefault_of_find? rfl rfl,
    optional_of_find? rfl (fun _ => rfl) htext, optional_of_find? rfl (fun _ => rfl) htext,
    optional_of_find? rfl readFloat_float hfloat, optional_of_find? rfl (fun _ => rfl) hbool,
    optional_of_find? rfl readInt_int hint, optional_of_find? rfl readNat_int (fun _ => hint _),
    optional_of_find? rfl hbarcode (fun _ => htext _), optional_of_find? rfl (fun _ => rfl) hbool,
    optional_of_find? rfl (Bitmap.read_toJson origin _) (fun _ => Json.noConfusion),
    optional_of_find? rfl (fun _ => rfl) htext⟩

theorem read_toJson (origin : Origin) (spelling : Spelling) {e : Element}
    (h : e.hasTwoImageSources = false) : read origin (e.toJson spelling) = .ok e :=
  ofMembers_eq_ok_iff.2 ⟨fieldsOf_toMembers origin spelling e, h⟩

end Element

theorem LabelSection.read_toJson (origin : Origin) (spelling : Spelling) {s : LabelSection}
    (h : ∀ e ∈ s.elements, e.hasTwoImageSources = false) :
    LabelSection.read origin (s.toJson spelling) = .ok s := by
  have helements : readList (Element.read origin) (.arr (s.elements.map (Element.toJson spelling))) =
      .ok s.elements := readList_map fun e he => Element.read_toJson origin spelling (h e he)
  refine LabelSection.ofMembers_eq_ok_iff.2 ?_
  cases spelling
  all_goals exact ⟨required_of_find? rfl rfl, withDefault_of_find? rfl helements⟩

namespace Label

theorem read_toJson (origin : Origin) (spelling : Spelling) {label : Label}
    (h : label.OnePictureEach) : read origin (label.toJson spelling) = .ok label := by
  have hheader := LabelSection.read_toJson origin spelling (h .header)
  have hbody := LabelSection.read_toJson origin spelling (h .body)
  have hfooter := LabelSection.read_toJson origin spelling (h .footer)
  refine ofMembers_eq_ok_iff.2 ?_
  cases spelling
  all_goals exact ⟨withDefault_of_find? rfl hheader, withDefault_of_find? rfl hbody,
    withDefault_of_find? rfl hfooter, withDefault_of_find? rfl rfl⟩

/-- However a label was spelled when it was read, both of its written forms read back as it. -/
theorem read_toJson_of_read {origin origin' : Origin} {v : Json} {label : Label}
    (h : read origin v = .ok label) (spelling : Spelling) :
    read origin' (label.toJson spelling) = .ok label :=
  read_toJson origin' spelling (onePictureEach_of_read h)

/-- Members in both spellings, and numbers and truth values in other forms than their own. -/
def roughDocument : Json := .obj
  [("header", .obj
      [("height", .str " 4_0 "),
        ("elements", .arr [.obj
          [("id", .str "logo"), ("type", .str "image"), ("x", .str "-Inf"), ("y", .bool true),
            ("width", .str "nan"), ("height", .int 12), ("is_dynamic", .str "Off"),
            ("dataSource", .null), ("fontBold", .float 1.0), ("rotation", .str "90.0"),
            ("max_chars", .float 5.0),
            ("zpl_image", .obj
              [("hex", .str "F0"), ("totalBytes", .str "1"), ("bytes_per_row", .bool true)])]])]),
    ("canvas_width", .int 104)]

def roughLabel : Label where
  header := ⟨40.0, [{
    id := "logo"
    kind := .image
    x := -(1.0 / 0.0)
    y := 1.0
    width := some (0.0 / 0.0)
    height := some 12.0
    content := none
    isDynamic := false
    dataSource := none
    imageKey := none
    fontSize := none
    fontBold := some true
    rotation := some 90
    maxChars := some 5
    barcodeKind := none
    showLabel := none
    bitmap := some ⟨"F0", 1, 1⟩
    imageData := none }]⟩
  body := blank.body
  footer := blank.footer
  canvasWidth := 104.0

theorem roughDocument_reads_back :
    read .value roughDocument = .ok roughLabel ∧
      read .value (roughLabel.toJson .joined) = .ok roughLabel ∧
      read .value (roughLabel.toJson .underscored) = .ok roughLabel := by
  have hread : read .value roughDocument = .ok roughLabel := by decide +kernel
  exact ⟨hread, read_toJson_of_read hread .joined, read_toJson_of_read hread .underscored⟩

end Label
end ThermalLabel
