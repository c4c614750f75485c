import ThermalLabel.Editor.Edit
import ThermalLabel.Preview
import ThermalLabel.Proofs.Fallible
import ThermalLabel.Proofs.Text.Encoding
import ThermalLabel.Proofs.Zpl.Layout
/-!
# A preview asks for the document that it compiled

The height of a label is computed twice, once for the document and once for the address of the
call. Both are of the same sum, so that the address and the document agree on the size. A label is
sent once if it compiles to a document with an encoding and not at all otherwise, whatever the
service does.
-/

namespace ThermalLabel

namespace Zpl

variable {label : Label} {rows : Int}

theorem eq_heightWith_of_totalHeight {height : Float} (h : totalHeight label rows = .ok height) :
    height = heightWith label rows := by
  obtain ⟨n, hn, h⟩ := bind_eq_ok_iff.1 h
  have hsum := Except.ok.inj h
  rw [ofInteger] at hn
  split at hn
  · rw [← hsum, ← Except.ok.inj hn]
    rfl
  · cases hn

/-- A document opens with its height in dots. -/
theorem height_of_documentText {data : SampleData} {mode : Mode} {requested : Int}
    {document : Text} (h : documentText data mode label requested = .ok document) :
    totalHeight label (mode.bodyRows requested) =
        .ok (heightWith label (mode.bodyRows requested)) ∧
      ∃ dots rest, millimetersToDots (heightWith label (mode.bodyRows requested)) = .ok dots ∧
        document = "^XA\n^CI28\n^LL" ++ toString dots ++ "\n" ++ rest := by
  obtain ⟨height, hheight, h⟩ := bind_eq_ok_iff.1 h
  obtain rfl := eq_heightWith_of_totalHeight hheight
  obtain ⟨dots, hdots, h⟩ := bind_eq_ok_iff.1 h
  obtain ⟨width, -, h⟩ := bind_eq_ok_iff.1 h
  obtain ⟨body, -, h⟩ := bind_eq_ok_iff.1 h
  obtain ⟨footerOffset, -, h⟩ := bind_eq_ok_iff.1 h
  have hopening : Text.plain "^XA\n^CI28\n^LL" = "^XA\n^CI28\n" ++ "^LL" := rfl
  have hparts (rest : Text) : Text.plain "^XA\n^CI28\n^LL" ++ toString dots ++ "\n" ++ rest =
      "^XA\n^CI28\n" ++ ("^LL" ++ (toString dots ++ ("\n" ++ rest))) := by
    rw [hopening]
    simp only [Text.append_assoc]
  have hdocument := Except.ok.inj h
  simp only [Text.append_assoc] at hdocument
  exact ⟨hheight, dots, _, hdots, hdocument.symm.trans (hparts _).symm⟩

end Zpl

namespace Preview

/-- A service that keeps every call in the order of arrival. Its replies may depend on the calls
before. -/
def recording (answer : List Call → Call → Reply) : Service (StateM (List Call)) := fun call =>
  modifyGet fun earlier => (answer earlier call, earlier ++ [call])

/-- A call for a document of a label: the address states the width of the label and the height that
the document opens with, both in inches. -/
structure Client.Asks (client : Client) (label : Label) (rows : Int) (document : String)
    (call : Call) : Prop where
  data : call.data = document.toUTF8
  timeout : call.timeout = client.timeout
  size : ∃ dots rest, millimetersToDots (Zpl.heightWith label rows) = .ok dots ∧
    Text.plain document = "^XA\n^CI28\n^LL" ++ toString dots ++ "\n" ++ rest ∧
    call.url = client.baseUrl ++ "/printers/8dpmm/labels/" ++
      twoPlacesText (label.canvasWidth / 25.4) ++ "x" ++
      twoPlacesText (atLeast 1.0 (Zpl.heightWith label rows / 25.4)) ++ "/0/"

/-- A status that says that the caller or the service is at fault. -/
def IsErrorStatus (status : Int) : Prop := 400 ≤ status ∧ status < 600

theorem isSuccess_iff {status : Int} : isSuccess status = true ↔ ¬ IsErrorStatus status := by
  simp only [isSuccess, IsErrorStatus, Bool.or_eq_true, decide_eq_true_eq]
  omega

theorem picture_eq_ok_iff {reply : Reply} {content : Text} :
    reply.picture = .ok content ↔
      ∃ status, reply = .answer status content ∧ ¬ IsErrorStatus status := by
  cases reply with
  | failure reason => simp [Reply.picture]
  | answer status text =>
    by_cases hstatus : IsErrorStatus status
    · simp [Reply.picture, isSuccess_iff, hstatus]
    · simp [Reply.picture, isSuccess_iff, hstatus]

/-- A reply says itself why it has no picture. -/
theorem picture_eq_error_iff {reply : Reply} {cause : PreviewError} :
    reply.picture = .error cause ↔
      (∃ reason, reply = .failure reason ∧ cause = .unreachable reason) ∨
        ∃ status text, reply = .answer status text ∧ IsErrorStatus status ∧
          cause = .refused status text := by
  constructor
  · intro h
    cases reply with
    | failure reason =>
      cases h
      exact .inl ⟨reason, rfl, rfl⟩
    | answer status text =>
      by_cases hstatus : IsErrorStatus status
      · simp only [Reply.picture, isSuccess_iff, hstatus, not_true, if_false] at h
        cases h
        exact .inr ⟨status, text, rfl, hstatus, rfl⟩
      · simp [Reply.picture, isSuccess_iff, hstatus] at h
  · rintro (⟨reason, rfl, rfl⟩ | ⟨status, text, rfl, hstatus, rfl⟩)
    · rfl
    · simp [Reply.picture, isSuccess_iff, hstatus]

variable (client : Client) {label : Label} {rows : Int}

theorem asks_callFor {document : String}
    (h : Zpl.documentText .standard .sample label rows = .ok document) :
    client.Asks label rows document
      (client.callFor document.toUTF8 label.canvasWidth (Zpl.heightWith label rows)) := by
  obtain ⟨-, dots, rest, hdots, hdocument⟩ := Zpl.height_of_documentText h
  refine ⟨rfl, rfl, dots, rest, hdots, hdocument, ?_⟩
  simp only [Client.callFor, Client.labelUrl, millimetersPerInch, String.append_assoc]
  rfl

theorem sampleDocument_eq_ok {document : Text}
    (h : Zpl.documentText .standard .sample label rows = .ok document) :
    sampleDocument label rows = .ok (document, Zpl.heightWith label rows) := by
  have hheight : Zpl.totalHeight label rows = .ok (Zpl.heightWith label rows) :=
    (Zpl.height_of_documentText h).1
  rw [sampleDocument, h, hheight]
  rfl

theorem sampleDocument_eq_error {cause : NumberError}
    (h : Zpl.documentText .standard .sample label rows = .error cause) :
    sampleDocument label rows = .error cause := by
  rw [sampleDocument, h]
  rfl

variable (label rows) (answer : List Call → Call → Reply) (earlier : List Call)

/-- Whatever the service answered before and answers now: a label is not sent if it does not compile,
nor if its document has no encoding, and then the error says where. Any other is sent once, as its
document. What comes back is the picture of a success, and an error of the preview that says what
the service said for everything else. -/
theorem renderLabel_calls_once :
    match Zpl.documentText .standard .sample label rows with
    | .error cause =>
      (client.renderLabel (recording answer) label rows).run earlier =
        (.error (.number cause), earlier)
    | .ok (.broken before half after) => ∃ cause : EncodingError,
      cause.Locates (.broken before half after) ∧
        (client.renderLabel (recording answer) label rows).run earlier =
          (.error (.preview (.unencodable cause)), earlier)
    | .ok (.plain document) => ∃ call result,
      (client.renderLabel (recording answer) label rows).run earlier =
          (result, earlier ++ [call]) ∧
        client.Asks label rows document call ∧
        (∀ content, result = .ok content ↔
          ∃ status, answer earlier call = .answer status content ∧ ¬ IsErrorStatus status) ∧
        ∀ cause, result = .error cause ↔
          (∃ reason, answer earlier call = .failure reason ∧
            cause = .preview (.unreachable reason)) ∨
          ∃ status text, answer earlier call = .answer status text ∧ IsErrorStatus status ∧
            cause = .preview (.refused status text) := by
  cases hdocument : Zpl.documentText .standard .sample label rows with
  | error cause =>
    simp only [Client.renderLabel, sampleDocument_eq_error hdocument]
    rfl
  | ok document =>
    cases document with
    | broken before half after =>
      refine ⟨_, Text.locates_of_encode rfl, ?_⟩
      simp only [Client.renderLabel, sampleDocument_eq_ok hdocument, Client.render, Text.encode]
      rfl
    | plain document =>
      generalize hcall : client.callFor document.toUTF8 label.canvasWidth
        (Zpl.heightWith label rows) = call
      refine ⟨call, (answer earlier call).picture.mapError .preview, ?_, ?_, ?_, ?_⟩
      · simp only [Client.renderLabel, sampleDocument_eq_ok hdocument, Client.render, Text.encode,
          hcall]
        rfl
      · exact hcall ▸ asks_callFor client hdocument
      · intro content
        rw [mapError_eq_ok_iff, picture_eq_ok_iff]
      · intro cause
        simp only [mapError_eq_error_iff, picture_eq_error_iff]
        constructor
        · rintro ⟨err, ⟨reason, hreason, rfl⟩ | ⟨status, text, hanswer, hstatus, rfl⟩, rfl⟩
          · exact .inl ⟨reason, hreason, rfl⟩
          · exact .inr ⟨status, text, hanswer, hstatus, rfl⟩
        · rintro (⟨reason, hreason, rfl⟩ | ⟨status, text, hanswer, hstatus, rfl⟩)
          · exact ⟨_, .inl ⟨reason, hreason, rfl⟩, rfl⟩
          · exact ⟨_, .inr ⟨status, text, hanswer, hstatus, rfl⟩, rfl⟩

/-- A label with a text that holds half of a surrogate pair. -/
def labelWithHalf : Label :=
  Label.blank.setPart .header ⟨40.0, [{ Editor.droppedElement "a" .text with
    content := some (.broken "a" 0 "b") }]⟩

/-- A label that compiles need not be sent: half of a surrogate pair is printed but not encoded. -/
theorem labelWithHalf_not_sent :
    ∃ before after,
      Zpl.documentText .standard .sample labelWithHalf 1 = .ok (.broken before 0 after) ∧
        ((Client.make none none).renderLabel (recording fun _ _ => .answer 200 "PNG") labelWithHalf
            1).run [] =
          (.error (.preview (.unencodable ⟨before.length, 0, 0⟩)), []) := by
  have hdocument : Zpl.documentText .standard .sample labelWithHalf 1 =
      .ok (.broken "^XA\n^CI28\n^LL560\n^PW832\n^FO21,21^A0N,34,34^FDa" 0 "b^FS\n^XZ") := by
    decide +kernel
  refine ⟨_, _, hdocument, ?_⟩
  simp only [Client.renderLabel, sampleDocument_eq_ok hdocument, Client.render, Text.encode]
  rfl

end Preview
end ThermalLabel
