import Mathlib
import ThermalLabel.Editor.Edit
import ThermalLabel.Proofs.Text.Occurrence
import ThermalLabel.Proofs.Zpl.Compiled
/-!
# Carets in documents

A caret starts a command. Each command of a document has one of its own, and what else a document
has of them stands in what is printed: field data and bitmaps are written as they are. Without any
there, a document starts and ends once.
-/

namespace ThermalLabel.Zpl

/-- How often a text starts a command. -/
def carets (s : Text) : Nat := s.points.count (.char '^')

/-- What a command carries to be printed, as it came from the label or the sample data. -/
def Command.content : Command → Text
  | graphic _ _ payload => payload
  | fieldData content => content
  | _ => ""

@[simp] theorem carets_append (s t : Text) : carets (s ++ t) = carets s + carets t := by
  simp [carets]

theorem carets_eq_zero_iff {s : Text} : carets s = 0 ↔ .char '^' ∉ s.points :=
  List.count_eq_zero

@[simp] theorem carets_natural (n : Nat) : carets n.repr = 0 := by
  rw [carets_eq_zero_iff, Text.points_plain, Nat.toList_repr, List.mem_map]
  rintro ⟨c, h, hc⟩
  cases hc
  have hdigit := Nat.isDigit_of_mem_toDigits (by decide) (by decide) h
  cases hdigit

@[simp] theorem carets_integer (n : Int) : carets n.repr = 0 := by
  cases n with
  | ofNat m => exact carets_natural m
  | negSucc m =>
    have hsigned : (Int.negSucc m).repr = "-" ++ (m + 1).repr := rfl
    rw [hsigned, Text.plain_append, carets_append, carets_natural]
    decide

@[simp] theorem carets_letter (o : Orientation) : carets o.letter = 0 := by
  cases o <;> decide

/-- A command has its own caret and those of what it carries. -/
theorem carets_written (c : Command) : carets c.written = 1 + carets c.content := by
  have hcomma : carets "," = 0 := by decide
  have hnothing : carets "" = 0 := by decide
  cases c with
  | fieldOrigin x y =>
    have hcode : carets "^FO" = 1 := by decide
    simp [Command.written, Command.content, hcode, hcomma, hnothing]
  | box w h b =>
    have hcode : carets "^GB" = 1 := by decide
    simp [Command.written, Command.content, hcode, hcomma, hnothing]
  | font o h w =>
    have hcode : carets "^A0" = 1 := by decide
    simp [Command.written, Command.content, hcode, hcomma, hnothing]
  | linearBarcode o h i =>
    have hcode : carets "^BC" = 1 := by decide
    have hrest : carets ",N,N" = 0 := by decide
    have hinterpretation : carets (if i then "Y" else "N" : String) = 0 := by cases i <;> decide
    simp [Command.written, Command.content, hcode, hcomma, hnothing, hinterpretation, hrest]
  | squareBarcode m =>
    have hcode : carets "^BQN,2," = 1 := by decide
    simp [Command.written, Command.content, hcode, hnothing]
  | graphic total perRow payload =>
    have hcode : carets "^GFA," = 1 := by decide
    simp [Command.written, Command.content, hcode, hcomma]
  | fieldData content =>
    have hcode : carets "^FD" = 1 := by decide
    simp [Command.written, Command.content, hcode]
  | fieldEnd => decide

/-- A command is its caret, a code of two characters that no document starts or ends with, and its
arguments. -/
theorem written_points (c : Command) :
    ∃ first second arguments, c.written.points = .char '^' :: first :: second :: arguments ∧
      first ≠ .char 'X' := by
  cases c with
  | fieldOrigin x y => exact ⟨'F', 'O', _, by simp [Command.written]; rfl, by decide⟩
  | box w h b => exact ⟨'G', 'B', _, by simp [Command.written]; rfl, by decide⟩
  | font o h w => exact ⟨'A', '0', _, by simp [Command.written]; rfl, by decide⟩
  | linearBarcode o h i => exact ⟨'B', 'C', _, by simp [Command.written]; rfl, by decide⟩
  | squareBarcode m => exact ⟨'B', 'Q', _, by simp [Command.written]; rfl, by decide⟩
  | graphic total perRow payload =>
    exact ⟨'G', 'F', _, by simp [Command.written]; rfl, by decide⟩
  | fieldData content => exact ⟨'F', 'D', _, by simp [Command.written]; rfl, by decide⟩
  | fieldEnd => exact ⟨'F', 'S', [], rfl, by decide⟩

/-! ## Starts and ends -/

section

variable {b : CodePoint}

/-- Neither a start nor an end begins within a command that carries no caret. -/
theorem occurrencesIn_command {c : Command} (h : carets c.content = 0) (rest : List CodePoint) :
    occurrencesIn ['^', 'X', b] (c.written.points ++ rest) = occurrencesIn ['^', 'X', b] rest := by
  obtain ⟨first, second, arguments, hwritten, hfirst⟩ := written_points c
  have hcount : (CodePoint.char '^' :: first :: second :: arguments).count (.char '^') = 1 := by
    have hcarets := carets_written c
    rwa [carets, hwritten, h] at hcarets
  have hplain : CodePoint.char '^' ∉ first :: second :: arguments := by
    rw [← List.count_eq_zero]
    rw [List.count_cons_self] at hcount
    omega
  simp only [List.mem_cons, not_or] at hplain
  obtain ⟨hfirst', hsecond, harguments⟩ := hplain
  rw [hwritten, List.cons_append, List.cons_append, List.cons_append,
    occurrencesIn_mark hfirst' hsecond harguments]
  simp [hfirst.symm]

theorem occurrencesIn_commands {commands : List Command}
    (h : ∀ c ∈ commands, carets c.content = 0) (rest : List CodePoint) :
    occurrencesIn ['^', 'X', b] ((Text.join (commands.map Command.written)).points ++ rest) =
      occurrencesIn ['^', 'X', b] rest := by
  induction commands with
  | nil => rfl
  | cons c commands ih =>
    have hcommand := h c List.mem_cons_self
    have hcommands := ih fun other hother => h other (List.mem_cons_of_mem c hother)
    rw [List.map_cons, Text.join_cons, Text.points_append, List.append_assoc,
      occurrencesIn_command hcommand, hcommands]

theorem occurrencesIn_lines {lines : List (List Command)}
    (h : ∀ c ∈ lines.flatten, carets c.content = 0) (rest : List CodePoint) :
    occurrencesIn ['^', 'X', b] ((writtenLines lines).points ++ rest) =
      occurrencesIn ['^', 'X', b] rest := by
  induction lines with
  | nil => rfl
  | cons line lines ih =>
    have hline : ∀ c ∈ line, carets c.content = 0 := fun c hc => h c (List.mem_append_left _ hc)
    have hlines := ih fun c hc => h c (List.mem_append_right _ hc)
    have hbreak : .char '^' ∉ Text.points "\n" := by decide
    have hcons : writtenLines (line :: lines) =
        Text.join (line.map Command.written) ++ "\n" ++ writtenLines lines := by
      rw [writtenLines, List.map_cons, Text.join_cons]
      rfl
    rw [hcons, Text.points_append, Text.points_append, List.append_assoc, List.append_assoc,
      occurrencesIn_commands hline, occurrencesIn_append_of_not_mem hbreak, hlines]

private theorem occurrencesIn_opening (rest : List CodePoint) :
    occurrencesIn ['^', 'X', b] (Text.points "^XA\n^CI28\n" ++ rest) =
      (if b = .char 'A' then 1 else 0) + occurrencesIn ['^', 'X', b] rest := by
  have hbreak : CodePoint.char '^' ∉ [.char '\n'] := by decide
  have hencoding : CodePoint.char '^' ∉ [.char '2', .char '8', .char '\n'] := by decide
  have hpoints : Text.points "^XA\n^CI28\n" =
      [.char '^', .char 'X', .char 'A', .char '\n', .char '^', .char 'C', .char 'I', .char '2',
        .char '8', .char '\n'] := by decide
  have hmarks : Text.points "^XA\n^CI28\n" ++ rest =
      .char '^' :: .char 'X' :: .char 'A' :: ([.char '\n'] ++ .char '^' :: .char 'C' ::
        .char 'I' :: ([.char '2', .char '8', .char '\n'] ++ rest)) := by
    rw [hpoints]
    rfl
  rw [hmarks, occurrencesIn_mark (by decide) (by decide) hbreak,
    occurrencesIn_mark (by decide) (by decide) hencoding]
  simp

private theorem occurrencesIn_size {first second : CodePoint} (hfirst : first ≠ .char 'X')
    (hfirst' : .char '^' ≠ first) (hsecond : .char '^' ≠ second) (n : Int) (rest : List CodePoint) :
    occurrencesIn ['^', 'X', b]
        (.char '^' :: first :: second :: (Text.points (toString n) ++ (Text.points "\n" ++ rest))) =
      occurrencesIn ['^', 'X', b] rest := by
  have hnumber : .char '^' ∉ (Text.points (toString n)) := List.count_eq_zero.1 (carets_integer n)
  have hbreak : .char '^' ∉ Text.points "\n" := by decide
  rw [occurrencesIn_mark hfirst' hsecond hnumber, occurrencesIn_append_of_not_mem hbreak]
  simp [hfirst.symm]

theorem occurrencesIn_document {d : Compiled} (h : ∀ c ∈ d.commands, carets c.content = 0) :
    occurrencesIn ['^', 'X', b] d.written.points =
      (if b = .char 'A' then 1 else 0) + if b = .char 'Z' then 1 else 0 := by
  have hend : occurrencesIn ['^', 'X', b] (Text.points "^XZ") = if b = .char 'Z' then 1 else 0 := by
    change occurrencesIn ['^', 'X', b] (.char '^' :: .char 'X' :: .char 'Z' :: ([] ++ [])) = _
    rw [occurrencesIn_mark (by decide) (by decide) List.not_mem_nil]
    simp [occurrencesIn]
  have hheight : Text.points "^LL" = [.char '^', .char 'L', .char 'L'] := rfl
  have hwidth : Text.points "^PW" = [.char '^', .char 'P', .char 'W'] := rfl
  unfold Compiled.written
  simp only [Text.points_append, List.append_assoc, hheight, hwidth]
  rw [occurrencesIn_opening]
  simp only [List.cons_append, List.nil_append]
  rw [occurrencesIn_size (by decide) (by decide) (by decide),
    occurrencesIn_size (by decide) (by decide) (by decide), occurrencesIn_lines h, hend]

end

theorem carets_commands (commands : List Command) :
    carets (Text.join (commands.map Command.written)) =
      commands.length + (commands.map fun c => carets c.content).sum := by
  induction commands with
  | nil => rfl
  | cons c commands ih =>
    rw [List.map_cons, Text.join_cons, carets_append, ih, carets_written, List.length_cons,
      List.map_cons, List.sum_cons]
    omega

theorem carets_lines (lines : List (List Command)) :
    carets (writtenLines lines) =
      lines.flatten.length + (lines.flatten.map fun c => carets c.content).sum := by
  induction lines with
  | nil => rfl
  | cons line lines ih =>
    have hbreak : carets "\n" = 0 := by decide
    rw [writtenLines, List.map_cons, Text.join_cons, carets_append, ← writtenLines, ih,
      writtenLine, carets_append, carets_commands, hbreak, List.flatten_cons, List.length_append,
      List.map_append, List.sum_append]
    omega

/-- Besides those of its commands a document has five carets of its own. -/
theorem carets_document (d : Compiled) :
    carets d.written = 5 + d.commands.length + (d.commands.map fun c => carets c.content).sum := by
  have hopening : carets "^XA\n^CI28\n" = 2 := by decide
  have hheight : carets "^LL" = 1 := by decide
  have hwidth : carets "^PW" = 1 := by decide
  have hend : carets "^XZ" = 1 := by decide
  have hbreak : carets "\n" = 0 := by decide
  have hnumber (n : Int) : carets (toString n) = 0 := carets_integer n
  unfold Compiled.written Compiled.commands
  simp only [carets_append, hnumber, carets_lines, hopening, hheight, hwidth, hend, hbreak]
  omega

/-! ## Where carets come from -/

end ThermalLabel.Zpl

namespace ThermalLabel

open Zpl

/-- The texts of an element that it may be printed with. -/
def Element.texts (e : Element) : List Text :=
  e.content.toList ++ e.dataSource.toList ++ e.imageKey.toList ++ (e.bitmap.map Bitmap.payload).toList

/-- The values of all rows and those shared by the label. -/
def SampleData.values (data : SampleData) : List Text :=
  (data.shared :: data.rows).flatMap fun record => record.map fun value => .plain value.2

namespace SampleData

variable {data : SampleData} {e : Element} {mode : Mode} {row : Option DataRecord}

theorem mem_values_of_value? {record : DataRecord} {source : Text} {value : String}
    (hrecord : record ∈ data.shared :: data.rows) (h : record.value? source = some value) :
    .plain value ∈ data.values := by
  obtain ⟨name, -, hname⟩ := Option.bind_eq_some_iff.1 h
  have hmem : (name, value) ∈ record := by
    obtain ⟨before, after, rfl, -⟩ := List.lookup_eq_some_iff.1 hname
    exact List.mem_append_right before List.mem_cons_self
  exact List.mem_flatMap.2 ⟨record, hrecord, List.mem_map_of_mem hmem⟩

theorem mem_rows_of_recordOf {index : Int} {record : DataRecord}
    (h : data.recordOf mode index = some record) : record ∈ data.rows := by
  cases mode with
  | template => cases h
  | sample => exact List.mem_of_getElem? h

theorem dataSource_of_boundSource? {source : Text} (h : boundSource? e = some source) :
    e.dataSource = some source := by
  unfold boundSource? nonempty? at h
  split at h
  · split at h
    · split at h
      · cases h
      · cases h
        assumption
    · cases h
  · cases h

theorem carets_placeholder (source : Text) : carets (placeholder source) = carets source := by
  have hopening : carets "[" = 0 := by decide
  have hclosing : carets "]" = 0 := by decide
  simp [placeholder, hopening, hclosing]

theorem carets_contentOf (helement : ∀ s ∈ e.texts, carets s = 0)
    (hvalues : ∀ s ∈ data.values, carets s = 0)
    (hrow : ∀ record, row = some record → record ∈ data.rows) :
    carets (data.contentOf e mode row) = 0 := by
  cases hbound : boundSource? e with
  | none =>
    cases hcontent : e.content with
    | none =>
      simp only [contentOf, hbound, hcontent]
      decide
    | some content =>
      simp only [contentOf, hbound, hcontent]
      exact helement content (by simp [Element.texts, hcontent])
  | some source =>
    have hsource : carets (placeholder source) = 0 := by
      rw [carets_placeholder]
      exact helement source (by simp [Element.texts, dataSource_of_boundSource? hbound])
    have hfound : ∀ record ∈ data.shared :: data.rows, ∀ value,
        record.value? source = some value → carets value = 0 := by
      intro record hrecord value hvalue
      exact hvalues value (mem_values_of_value? hrecord hvalue)
    simp only [contentOf, hbound, resolve]
    cases mode with
    | template => exact hsource
    | sample =>
      cases hown : row.bind (DataRecord.value? · source) with
      | some value =>
        obtain ⟨record, rfl, hvalue⟩ := Option.bind_eq_some_iff.1 hown
        exact hfound record (List.mem_cons_of_mem _ (hrow record rfl)) value hvalue
      | none =>
        cases hshared : data.shared.value? source with
        | none => exact hsource
        | some value => exact hfound data.shared List.mem_cons_self value hshared

end SampleData

namespace Zpl

variable {data : SampleData} {mode : Mode} {e : Element} {commands : List Command}

private theorem carets_cutText {content : Text} (h : carets content = 0) (limit : Int) :
    carets (cutText content (some limit) ellipsis) = 0 := by
  have hellipsis : carets ellipsis = 0 := by decide
  have hkept : (keepFirst limit content.points).Sublist content.points := by
    unfold keepFirst
    split <;> exact List.take_sublist _ _
  change carets (if (content.length : Int) ≤ limit then content
    else Text.ofPoints (keepFirst limit content.points) ++ ellipsis) = 0
  by_cases hfits : (content.length : Int) ≤ limit
  · rwa [if_pos hfits]
  · rw [if_neg hfits, carets_append, hellipsis, carets, Text.points_ofPoints]
    have hcount := hkept.count_le (CodePoint.char '^')
    rw [carets] at h
    omega

theorem carets_shownText {content : Text} (h : carets content = 0) :
    carets (shownText mode e content) = 0 := by
  unfold shownText
  split
  · split
    · exact h
    · exact carets_cutText h _
  · exact h

theorem carets_imageName (helement : ∀ s ∈ e.texts, carets s = 0) :
    carets ((nonempty? e.imageKey).getD "NONE") = 0 := by
  have hnone : carets "NONE" = 0 := by decide
  cases hkey : e.imageKey with
  | none => exact hnone
  | some key =>
    by_cases hempty : key = ""
    · simp only [nonempty?, hempty, if_true]
      exact hnone
    · simp only [nonempty?, hempty, if_false]
      exact helement key (by simp [Element.texts, hkey])

/-- An element whose own texts and whose shown text have no carets is printed without any. -/
theorem carets_fieldCommands {row : Option DataRecord} {x y : Int}
    (helement : ∀ s ∈ e.texts, carets s = 0) (hshown : carets (data.contentOf e mode row) = 0)
    (h : fieldCommands data mode e row x y = .ok commands) :
    ∀ c ∈ commands, carets c.content = 0 := by
  have hnothing : carets "" = 0 := by decide
  unfold fieldCommands at h
  cases hkind : e.kind with
  | box =>
    simp only [hkind, boxCommands, bind_eq_ok_iff] at h
    obtain ⟨w, -, height, -, hp⟩ := h
    cases hp
    simp [Command.content, hnothing]
  | barcode =>
    simp only [hkind, barcodeCommands] at h
    split at h
    · obtain ⟨m, -, hp⟩ := bind_eq_ok_iff.1 h
      cases hp
      have hprefix : carets "QA," = 0 := by decide
      simp [Command.content, hnothing, hprefix, hshown]
    · obtain ⟨height, -, hp⟩ := bind_eq_ok_iff.1 h
      cases hp
      simp [Command.content, hnothing, hshown]
  | image =>
    simp only [hkind, imageCommands] at h
    split at h
    · rename_i b hbitmap
      cases h
      have hpayload : carets b.payload = 0 := by
        have hb : e.bitmap = some b := (Option.filter_eq_some_iff.1 hbitmap).1
        exact helement b.payload (by simp [Element.texts, hb])
      simp [Command.content, hnothing, hpayload]
    · simp only [bind_eq_ok_iff] at h
      obtain ⟨w, -, height, -, hp⟩ := h
      cases hp
      have hopening : carets "[IMG:" = 0 := by decide
      have hclosing : carets "]" = 0 := by decide
      simp [Command.content, hnothing, hopening, hclosing, carets_imageName helement]
  | text =>
    simp only [hkind, textCommands] at h
    obtain ⟨size, -, hp⟩ := bind_eq_ok_iff.1 h
    cases hp
    simp [Command.content, hnothing, carets_shownText hshown]

theorem carets_sectionLines {elements : List Element} {place : Place}
    (helements : ∀ e ∈ elements, ∀ s ∈ e.texts, carets s = 0)
    (hvalues : ∀ s ∈ data.values, carets s = 0)
    (hrow : ∀ record, place.row = some record → record ∈ data.rows) :
    ∀ c ∈ (sectionLines data mode elements place).flatten, carets c.content = 0 := by
  intro c hc
  obtain ⟨line, hline, hmem⟩ := List.mem_flatten.1 hc
  obtain ⟨e, he, hcommands⟩ := List.mem_filterMap.1 hline
  cases h : elementCommands data mode e place with
  | error err =>
    rw [h] at hcommands
    cases hcommands
  | ok commands =>
    rw [h] at hcommands
    cases hcommands
    obtain ⟨x, y, field, hfield, rfl⟩ := exists_of_elementCommands h
    have hshown : carets (data.contentOf e mode place.row) = 0 :=
      SampleData.carets_contentOf (helements e he) hvalues hrow
    rcases List.mem_cons.1 hmem with rfl | hfieldMem
    · exact carets_append "" ""
    · exact carets_fieldCommands (helements e he) hshown hfield c hfieldMem

theorem carets_compiled {label : Label} {requested : Int} {d : Compiled}
    (helements : ∀ e ∈ label.elements, ∀ s ∈ e.texts, carets s = 0)
    (hvalues : ∀ s ∈ data.values, carets s = 0)
    (h : compiled data mode label requested = .ok d) : ∀ c ∈ d.commands, carets c.content = 0 := by
  simp only [compiled, bind_eq_ok_iff] at h
  obtain ⟨_, -, _, -, _, -, body, hbody, footerOffset, -, hp⟩ := h
  cases hp
  have hpart (name : SectionName) : ∀ e ∈ (label.part name).elements, ∀ s ∈ e.texts,
      carets s = 0 := by
    intro e he
    apply helements e
    simp only [Label.elements, List.mem_append]
    cases name with
    | header => exact Or.inl (Or.inl he)
    | body => exact Or.inl (Or.inr he)
    | footer => exact Or.inr he
  have hnone : ∀ record, none = some record → record ∈ data.rows := by
    intro record hrecord
    cases hrecord
  intro c hc
  simp only [Compiled.commands, List.flatten_append, List.mem_append] at hc
  rcases hc with (hheader | hrows) | hfooter
  · exact carets_sectionLines (hpart .header) hvalues hnone c hheader
  · obtain ⟨line, hline, hmem⟩ := List.mem_flatten.1 hrows
    obtain ⟨block, hblock, hlineMem⟩ := List.mem_flatten.1 hline
    obtain ⟨i, -, hi⟩ := exists_of_mem_mapM hbody hblock
    obtain ⟨offset, -, hi⟩ := bind_eq_ok_iff.1 hi
    cases hi
    refine carets_sectionLines (hpart .body) hvalues ?_ c (List.mem_flatten.2 ⟨line, hlineMem, hmem⟩)
    intro record hrecord
    exact SampleData.mem_rows_of_recordOf hrecord
  · exact carets_sectionLines (hpart .footer) hvalues hnone c hfooter

theorem exists_between (d : Compiled) : ∃ between, d.written = "^XA" ++ between ++ "^XZ" := by
  have hopening : Text.plain "^XA\n^CI28\n" = "^XA" ++ "\n^CI28\n" := by decide
  refine ⟨"\n^CI28\n" ++ "^LL" ++ toString d.height ++ "\n" ++ "^PW" ++ toString d.width ++ "\n" ++
    writtenLines d.lines, ?_⟩
  unfold Compiled.written
  rw [hopening]
  simp only [Text.append_assoc]

/-- A document runs from its start to its end, and its carets are those of its commands and those of
what is printed. It has no other start and no other end if nothing printed has a caret, and so in
particular if no text of an element and no sample value has one. -/
theorem carets_of_document {label : Label} {requested : Int} {document : Text}
    (h : documentText data mode label requested = .ok document) :
    ∃ d, compiled data mode label requested = .ok d ∧ document = d.written ∧
      (∃ between, document = "^XA" ++ between ++ "^XZ") ∧
      carets document =
        5 + d.commands.length + (d.commands.map fun c => carets c.content).sum ∧
      ((∀ c ∈ d.commands, carets c.content = 0) →
        occurrences "^XA" document = 1 ∧ occurrences "^XZ" document = 1) ∧
      ((∀ e ∈ label.elements, ∀ s ∈ e.texts, carets s = 0) → (∀ s ∈ data.values, carets s = 0) →
        ∀ c ∈ d.commands, carets c.content = 0) := by
  rw [documentText_eq_compiled] at h
  cases hd : compiled data mode label requested with
  | error err =>
    rw [hd] at h
    cases h
  | ok d =>
    rw [hd] at h
    cases h
    refine ⟨d, rfl, rfl, ?_, carets_document d, ?_, ?_⟩
    · exact exists_between d
    · intro hplain
      exact ⟨occurrencesIn_document hplain, occurrencesIn_document hplain⟩
    · intro helements hvalues
      exact carets_compiled helements hvalues hd

/-- A blank label with a text at the top left of its header. -/
def labelWithText (content : Text) : Label :=
  Label.blank.modifyPart .header (·.push { Editor.droppedElement "a" .text with
    x := 0.0
    y := 0.0
    content := some content })

theorem greeting_is_one_document :
    ∃ document, documentText .standard .template (labelWithText "Hello") 1 = .ok document ∧
      occurrences "^XA" document = 1 ∧ occurrences "^XZ" document = 1 := by
  obtain ⟨document, hdocument⟩ : ∃ document,
      documentText .standard .template (labelWithText "Hello") 1 = .ok document :=
    exists_eq_ok (by decide +kernel)
  obtain ⟨d, -, -, -, -, hplain, hsource⟩ := carets_of_document hdocument
  have helements : ∀ e ∈ (labelWithText "Hello").elements, ∀ s ∈ e.texts, carets s = 0 := by
    decide +kernel
  have hvalues : ∀ s ∈ SampleData.standard.values, carets s = 0 := by decide +kernel
  exact ⟨document, hdocument, hplain (hsource helements hvalues)⟩

/-- A text may end the document that it is printed in and begin another one. -/
theorem text_ends_and_restarts_document :
    ∃ document, documentText .standard .template (labelWithText "^XZ^XA") 1 = .ok document ∧
      occurrences "^XA" document = 2 ∧ occurrences "^XZ" document = 2 := by
  refine ⟨"^XA\n^CI28\n^LL560\n^PW832\n^FO0,0^A0N,34,34^FD^XZ^XA^FS\n^XZ", ?_, ?_, ?_⟩
  · decide +kernel
  · decide +kernel
  · decide +kernel

end Zpl
end ThermalLabel
