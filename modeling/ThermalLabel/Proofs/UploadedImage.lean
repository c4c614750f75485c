import ThermalLabel.Proofs.Editor.AttachedImage
import ThermalLabel.Proofs.Image.Encoding
import ThermalLabel.Proofs.Text.DataUrl
import ThermalLabel.Zpl.Element
/-!
# From an uploaded picture to the printer

What encoding a picture answers with goes to the client, comes back to be attached to an element,
and is compiled. On the way nothing drifts apart: the bitmap that is printed is packed from the
pixels of the picture that the client sees, and the sizes that stand beside it are those of its
digits.
-/

namespace ThermalLabel

open Image Editor

/-- The picture that a data URL shows to a reader of picture files. -/
def shown? (read : List Nat → Option (Raster Rgb)) (url : Text) : Option (Raster Rgb) := do
  let (mediaType, bytes) ← openDataUrl? (← url.characters?)
  if mediaType = "image/png" then read bytes else none

/-- Any element of a section takes an encoded image, and one that prints an image prints it. -/
def ImageEncoding.Attaches (r : ImageEncoding) : Prop :=
  ∀ (s : Session) (name : SectionName), ∀ e ∈ (s.label.part name).elements,
    ∃ old new next, (s.label.part name).find? e.id = some old ∧
      (∃ bitmap, r.toBitmap = .ok bitmap ∧ new = old.withImage r bitmap) ∧
      s.step (.edit (.setImage (.ok name) (.id e.id) r)) = (next, .ok (.element new)) ∧
      (next.label.part name).find? e.id = some new ∧
      ∀ (data : SampleData) (mode : Mode) (place : Zpl.Place) (x top below : Int),
        new.kind = .image → pixelsToDots new.x = .ok x →
        millimetersToDots place.offset = .ok top → pixelsToDots new.y = .ok below →
        Zpl.elementText data mode new place =
          .ok ("^FO" ++ toString x ++ "," ++ toString (top + below) ++ "^GFA," ++
            toString r.totalBytes ++ "," ++ toString r.totalBytes ++ "," ++
            toString r.bytesPerRow ++ "," ++ r.payload ++ "^FS\n")

/-- An encoded image whose bitmap and sizes are those of the picture that it shows. -/
structure ImageEncoding.Agrees (r : ImageEncoding) (preview : Raster Rgb) (file : List Nat) :
    Prop where
  payload : r.payload = (pack preview).payload
  totalBytes : r.totalBytes = (pack preview).totalBytes
  bytesPerRow : r.bytesPerRow = (pack preview).bytesPerRow
  width : r.width = preview.width
  height : r.height = preview.height
  /-- Whoever reads the file back without a loss sees the picture. -/
  shown : ∀ read : List Nat → Option (Raster Rgb), read file = some preview →
    shown? read r.preview = some preview
  bytesPerRow_eq : r.bytesPerRow = (r.width + 7) / 8
  totalBytes_eq : r.totalBytes = r.bytesPerRow * r.height
  length_payload : (r.payload.length : Int) = 2 * r.totalBytes

namespace Zpl

variable {data : SampleData} {mode : Mode} {e : Element} {place : Place} {bitmap : Bitmap}
  {x top below : Int}

/-- An image with a bitmap is printed as its bitmap. -/
theorem elementText_of_bitmap (hkind : e.kind = .image) (hbitmap : e.bitmap = some bitmap)
    (hpayload : bitmap.payload ≠ "") (hx : pixelsToDots e.x = .ok x)
    (htop : millimetersToDots place.offset = .ok top) (hbelow : pixelsToDots e.y = .ok below) :
    elementText data mode e place =
      .ok ("^FO" ++ toString x ++ "," ++ toString (top + below) ++ "^GFA," ++
        toString bitmap.totalBytes ++ "," ++ toString bitmap.totalBytes ++ "," ++
        toString bitmap.bytesPerRow ++ "," ++ bitmap.payload ++ "^FS\n") := by
  have hprintable : printableBitmap? e = some bitmap := by
    simp [printableBitmap?, hbitmap, hpayload]
  have hcommands : elementCommands data mode e place =
      .ok [.fieldOrigin x (top + below),
        .graphic bitmap.totalBytes bitmap.bytesPerRow bitmap.payload, .fieldEnd] := by
    simp only [elementCommands, hx, htop, hbelow, fieldCommands, hkind, imageCommands, hprintable]
    rfl
  have hend : ("^FS" : Text) ++ "\n" = "^FS\n" := rfl
  rw [elementText, hcommands]
  apply congrArg Except.ok
  simp only [writtenLine, List.map_cons, List.map_nil, Command.written, Text.join_cons,
    Text.join_nil, Text.append_assoc, Text.empty_append, hend]

end Zpl

namespace ImageEncoding

variable {tools : Tools} {preview : Raster Rgb}

theorem agrees_ofEncoded :
    (ofEncoded tools.write ⟨pack preview, preview⟩).Agrees preview (tools.write preview) := by
  have hopened : openDataUrl? (dataUrl (tools.write preview) "image/png") =
      some ("image/png", tools.write preview) :=
    openDataUrl?_dataUrl (tools.write_lt preview) (by simp)
  refine ⟨rfl, rfl, rfl, rfl, rfl, ?_, ?_, ?_, ?_⟩
  · intro read hread
    simp only [shown?, ofEncoded, Text.characters?, hopened, Option.bind_eq_bind, Option.bind_some]
    exact hread
  · simp [ofEncoded, pack, rowBytes]
  · simp [ofEncoded, pack, Int.mul_comm]
  · simp only [ofEncoded, Text.length_plain, length_payload_pack]
    push_cast
    rfl

theorem attaches_of_bitmap {r : ImageEncoding} {bitmap : Bitmap}
    (hpayload : r.payload = bitmap.payload) (htotalBytes : r.totalBytes = bitmap.totalBytes)
    (hbytesPerRow : r.bytesPerRow = bitmap.bytesPerRow) (hnonempty : bitmap.payload ≠ "")
    (hwidth : r.width.natAbs < 2 ^ 256) (hheight : r.height.natAbs < 2 ^ 256) : r.Attaches := by
  intro s name e he
  have hbitmap := toBitmap_eq_ok_iff.2 ⟨hpayload, htotalBytes, hbytesPerRow⟩
  obtain ⟨old, next, hold, hstep, hnext⟩ := s.step_setImage he hwidth hheight hbitmap
  refine ⟨old, _, next, hold, ⟨bitmap, hbitmap, rfl⟩, hstep, hnext, ?_⟩
  intro data mode place x top below hkind hx htop hbelow
  rw [hpayload, htotalBytes, hbytesPerRow]
  exact Zpl.elementText_of_bitmap hkind rfl hnonempty hx htop hbelow

theorem attaches_ofEncoded (hwidth : IsLength preview.width) (hheight : IsLength preview.height) :
    (ofEncoded tools.write ⟨pack preview, preview⟩).Attaches := by
  let bitmap : Bitmap :=
    ⟨(pack preview).payload, (pack preview).totalBytes, (pack preview).bytesPerRow⟩
  have hnonempty : bitmap.payload ≠ "" := by
    have hpos := hwidth.1
    have hpos' := hheight.1
    have hpayload : (pack preview).payload ≠ "" := payload_pack_ne_empty (by omega) (by omega)
    exact fun h => hpayload (Text.plain.inj h)
  exact attaches_of_bitmap rfl rfl rfl hnonempty hwidth.natAbs_lt hheight.natAbs_lt

end ImageEncoding

/-- Whatever tools read, turn, resize and write pictures: a picture of ordinary sides is encoded
for every box. The answer has the sides that fit the box, its bitmap is packed from the picture
that it shows, and any element takes it and prints it. -/
theorem upload_prints_what_it_shows (tools : Tools) (file : ImageFile) (picture : Picture)
    (maxWidth maxHeight : Int) (hdecode : tools.decode file = .ok picture)
    (hpicture : (tools.upright picture).Ordinary) (hmaxWidth : 0 < maxWidth)
    (hmaxHeight : 0 < maxHeight) :
    ∃ encoded r, tools.encode file maxWidth maxHeight = .ok encoded ∧
      (∀ write write_lt, tools = .own write write_lt →
        Image.encode file maxWidth maxHeight = .ok encoded) ∧
      r = ImageEncoding.ofEncoded tools.write encoded ∧
      fitWithin ⟨(tools.upright picture).width, (tools.upright picture).height⟩ maxWidth maxHeight =
        .ok ⟨r.width, r.height⟩ ∧
      r.Agrees encoded.preview (tools.write encoded.preview) ∧ r.Attaches := by
  obtain ⟨preview, hencode, hsides, hlength, hlength'⟩ :=
    tools.exists_encode hdecode hpicture hmaxWidth hmaxHeight
  refine ⟨⟨pack preview, preview⟩, _, hencode, ?_, rfl, hsides, ImageEncoding.agrees_ofEncoded,
    ImageEncoding.attaches_ofEncoded hlength hlength'⟩
  rintro write write_lt rfl
  rwa [Tools.encode_own] at hencode

/-- A black and a white dot, as a plain file. -/
def twoDots : ImageFile :=
  .bytes ⟨#[80, 54, 32, 50, 32, 49, 32, 50, 53, 53, 10, 0, 0, 0, 255, 255, 255]⟩

/-- The same two dots, as a compressed file. -/
def writtenTwoDots : List Nat :=
  [137, 80, 78, 71, 13, 10, 26, 10, 0, 0, 0, 13, 73, 72, 68, 82, 0, 0, 0, 2, 0, 0, 0, 1, 8, 2, 0, 0,
    0, 123, 64, 232, 221, 0, 0, 0, 15, 73, 68, 65, 84, 120, 156, 99, 96, 96, 96, 248, 255, 255, 63,
    0, 6, 1, 2, 254, 2, 178, 57, 174, 0, 0, 0, 0, 73, 69, 78, 68, 174, 66, 96, 130]

theorem writtenTwoDots_lt : ∀ b ∈ writtenTwoDots, b < 256 := by
  decide

theorem twoDots_prints_what_it_shows :
    let tools := Tools.own (fun _ => writtenTwoDots) fun _ => writtenTwoDots_lt
    ∃ picture, tools.decode twoDots = .ok picture ∧ (tools.upright picture).Ordinary ∧
      ∃ encoded r, Image.encode twoDots 800 600 = .ok encoded ∧
        r = ImageEncoding.ofEncoded tools.write encoded ∧
        fitWithin ⟨(tools.upright picture).width, (tools.upright picture).height⟩ 800 600 =
          .ok ⟨r.width, r.height⟩ ∧
        r.Agrees encoded.preview writtenTwoDots ∧ r.Attaches := by
  intro tools
  have hread : twoDots.decode.isOk = true := by decide +kernel
  obtain ⟨picture, hpicture⟩ := exists_eq_ok hread
  have hcolours : picture.toRgba.Ordinary := ordinary_of_decode hpicture
  have hordinary := hcolours.upright picture.orientation
  obtain ⟨encoded, r, -, hencode, hr, hsides, hagrees, hattaches⟩ :=
    upload_prints_what_it_shows tools twoDots picture 800 600 hpicture hordinary (by decide)
      (by decide)
  exact ⟨picture, hpicture, hordinary, encoded, r, hencode _ _ rfl, hr, hsides, hagrees, hattaches⟩

end ThermalLabel
