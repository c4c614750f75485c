import ThermalLabel.Proofs.Editor.Selection
import ThermalLabel.Proofs.Editor.SendableEdits
import ThermalLabel.Service.Routes
/-!
# Editing by requests

The service keeps no session: a client sends the label along with each edit and keeps the label of
the response. Edits made in this way come to the same labels as those of one session, and each is
refused for the reason for which it would be refused there.
-/

namespace ThermalLabel.Service

open Schema Editor

/-- A request to the editor that is valid whatever label it is sent with: its other members, and
what they are read as. -/
inductive EditRequest where
  | add (members : List (String × Json)) (place : SectionName) (element : Element)
    (hplace : required (.plain "section") (readName SectionName.names) members = .ok place)
    (helement : required (.plain "element") (Element.read .request) members = .ok element)
  | drag (members : List (String × Json)) (event : DragEvent) (zoom : Float)
    (hevent : required (.plain "event") DragEvent.read members = .ok event)
    (hzoom : withDefault (.plain "zoom") 1.25 readFloat members = .ok zoom)

namespace EditRequest

def members : EditRequest → List (String × Json)
  | add members .. => members
  | drag members .. => members

def path : EditRequest → String
  | add .. => "/editor/add_element"
  | drag .. => "/editor/drag"

def post (document : Json) (r : EditRequest) : Request where
  method := "POST"
  path := r.path
  query := []
  body := .document (.obj (("label", document) :: r.members))

/-- The numbers of an element that is added are finite; those of a drag may be any. -/
def Finite : EditRequest → Prop
  | add _ _ element .. => element.Finite
  | drag .. => True

/-- The edit that is asked for, with an id for a tool that is dropped. -/
def edit (freshId : String) : EditRequest → Edit
  | add _ place element .. => .add (.ok place) element
  | drag _ event .. => editOf freshId event

/-- What comes before the same edit in a session: a drag takes place at its own zoom. -/
def preparation : EditRequest → List Operation
  | add .. => []
  | drag _ _ zoom .. => [.setZoom zoom]

/-- The zoom of the canvas that the edit is made on, in a session of a zoom. -/
def zoomFrom (zoom : Float) : EditRequest → Float
  | add .. => zoom
  | drag _ _ requested .. => clampZoom requested

/-- The members of the response to an accepted edit. -/
def answer (r : EditRequest) (element : Option Element) (label : Label) : List (String × Json) :=
  match r with
  | add .. => [("label", label.toJson .joined)]
  | drag .. =>
    [("element", .ofOption (Element.toJson .joined) element), ("label", label.toJson .joined)]

end EditRequest

/-- A request with the id that the service would draw for it. -/
structure Exchange where
  request : EditRequest
  freshId : String

/-- The response to a request. What carries it to the client carries every text as it is. -/
def respond (env : Environment Id) (document : Json) (x : Exchange) : Response :=
  dispatch { env with freshId := x.freshId } (x.request.post document)

/-- The label that a client holds after a response: that of a success, or else the one before. -/
def received (document : Json) (response : Response) : Json :=
  match response with
  | ⟨200, .document (.obj members)⟩ => (Json.member? "label" members).getD document
  | _ => document

def heldAfter (env : Environment Id) (document : Json) (exchanges : List Exchange) : Json :=
  exchanges.foldl (fun document x => received document (respond env document x)) document

def Exchange.operations (x : Exchange) : List Operation :=
  x.request.preparation ++ [.edit (x.request.edit x.freshId)]

def sessionAfter (s : Session) (exchanges : List Exchange) : Session :=
  s.run (exchanges.flatMap Exchange.operations)

variable {env : Environment Id} {document : Json} {label : Label} {x : Exchange}

theorem editing_eq (label : Label) (zoom : Float) (edit : Edit)
    (members : Option Element → Label → List (String × Json)) :
    editing label zoom edit members =
      match edit.apply (clampZoom zoom) label with
      | .ok r => sendable (success (members r.element r.label))
      | .error e => refusedEdit e := by
  have hlabel : Session.IgnoresSelection Session.label := fun _ => rfl
  have happly : edit.apply ((Session.start label defaultHistoryLimit).setZoom zoom).zoom
      ((Session.start label defaultHistoryLimit).setZoom zoom).label =
        edit.apply (clampZoom zoom) label := rfl
  simp only [editing, Session.perform_eq, happly]
  cases edit.apply (clampZoom zoom) label with
  | error err => rfl
  | ok r =>
    simp only [hlabel.accept]
    rfl

/-- A request is answered by its edit of the label that the client holds. -/
theorem respond_eq (h : Label.read .request document = .ok label) (zoom : Float) :
    respond env document x =
      match (x.request.edit x.freshId).apply (x.request.zoomFrom zoom) label with
      | .ok r => sendable (success (x.request.answer r.element r.label))
      | .error e => refusedEdit e := by
  obtain ⟨request, freshId⟩ := x
  have hlabel (members : List (String × Json)) :
      required (.plain "label") (Label.read .request) (("label", document) :: members) =
        .ok label := required_of_find? rfl h
  cases request with
  | add members place element hplace helement =>
    -- The label is not looked for under the names of the other members.
    have hplace' : required (.plain "section") (readName SectionName.names)
        (("label", document) :: members) = .ok place := hplace
    have helement' : required (.plain "element") (Element.read .request)
        (("label", document) :: members) = .ok element := helement
    have hread : AddElementRequest.read .request (.obj (("label", document) :: members)) =
        .ok ⟨label, place, element⟩ := by
      change AddElementRequest.ofMembers .request (("label", document) :: members) = _
      unfold AddElementRequest.ofMembers
      rw [hlabel, hplace', helement']
      rfl
    have hroute : respond env document ⟨.add members place element hplace helement, freshId⟩ =
        addElement (.document (.obj (("label", document) :: members))) := rfl
    rw [hroute, addElement, answering, Body.read, Body.toDocument]
    simp only [Except.bind, hread, Checked.toExcept, editing_eq]
    rfl
  | drag members event requested hevent hzoom =>
    have hevent' : required (.plain "event") DragEvent.read (("label", document) :: members) =
        .ok event := hevent
    have hzoom' : withDefault (.plain "zoom") 1.25 readFloat (("label", document) :: members) =
        .ok requested := hzoom
    have hread : DragRequest.read .request (.obj (("label", document) :: members)) =
        .ok ⟨label, event, requested⟩ := by
      change DragRequest.ofMembers .request (("label", document) :: members) = _
      unfold DragRequest.ofMembers
      rw [hlabel, hevent', hzoom']
      rfl
    have hroute : respond env document ⟨.drag members event requested hevent hzoom, freshId⟩ =
        drag freshId (.document (.obj (("label", document) :: members))) := rfl
    rw [hroute, drag, answering, Body.read, Body.toDocument]
    simp only [Except.bind, hread, Checked.toExcept, editing_eq]
    rfl

/-! ## One exchange -/

theorem sendable_edit (hlabel : label.Sendable) (hx : x.request.Finite) {zoom : Float} {r : Edited}
    (h : (x.request.edit x.freshId).apply zoom label = .ok r) :
    r.label.Sendable ∧ ∀ e ∈ r.element, e.Sendable := by
  obtain ⟨request, freshId⟩ := x
  cases request with
  | add members place element hplace helement =>
    obtain ⟨v, hv⟩ := exists_of_required helement
    exact sendable_addElement hlabel ⟨hx, Element.onePicture_of_read hv⟩ h
  | drag members event requested hevent hzoom =>
    cases event with
    | drop event => exact sendable_dropTool hlabel h
    | move event => exact sendable_moveElement hlabel h

theorem sendable_answer (request : EditRequest) {r : Edited} (hlabel : r.label.Sendable)
    (helement : ∀ e ∈ r.element, e.Sendable) :
    sendable (success (request.answer r.element r.label)) =
      .document 200 (success (request.answer r.element r.label)) := by
  have hlabel' : (r.label.toJson .joined).hasNonFinite = false := hlabel.finite.hasNonFinite_toJson
  have helement' : (Json.ofOption (Element.toJson .joined) r.element).hasNonFinite = false :=
    hasNonFinite_ofOption fun e he => (helement e he).finite.hasNonFinite_toJson
  have hfinite : (success (request.answer r.element r.label)).hasNonFinite = false := by
    apply hasNonFinite_obj
    cases request with
    | add =>
      simp only [EditRequest.answer, List.forall_mem_cons]
      exact ⟨rfl, hlabel', List.forall_mem_nil _⟩
    | drag =>
      simp only [EditRequest.answer, List.forall_mem_cons]
      exact ⟨rfl, helement', hlabel', List.forall_mem_nil _⟩
  rw [sendable, hfinite]
  rfl

/-- What is said of an edit in a session, as a status. -/
def statusOf : Except EditError Outcome → Nat
  | .ok _ => 200
  | .error (.duplicateId _ _) => 409
  | .error (.notFound _ _) => 404
  | .error _ => 500

theorem status_refusedEdit (e : EditError) : (refusedEdit e).status = statusOf (.error e) := by
  cases e with
  | duplicateId id place => rfl
  | notFound target place => rfl
  | _ => rfl

theorem received_refusedEdit (document : Json) (e : EditError) :
    received document (refusedEdit e) = document := by
  cases e with
  | duplicateId id place => rfl
  | notFound target place => rfl
  | _ => rfl

theorem received_answer (document : Json) (request : EditRequest) (element : Option Element)
    (label : Label) :
    received document (.document 200 (success (request.answer element label))) =
      label.toJson .joined := by
  cases request <;> rfl

theorem zoom_preparation (s : Session) (request : EditRequest) :
    s.run request.preparation = { s with zoom := request.zoomFrom s.zoom } := by
  cases request <;> rfl

/-- A client and a session that hold the same label, one that can be sent. -/
structure Together (document : Json) (s : Session) : Prop where
  read : Label.read .request document = .ok s.label
  finite : s.label.Finite

theorem Together.label_sendable {s : Session} (h : Together document s) : s.label.Sendable :=
  ⟨h.finite, Label.onePictureEach_of_read h.read⟩

/-- The status of a response says what the same edit comes to in the session. -/
theorem Together.status_respond {s : Session} (h : Together document s) (hx : x.request.Finite) :
    (respond env document x).status =
      statusOf ((s.run x.request.preparation).step (.edit (x.request.edit x.freshId))).2 := by
  rw [respond_eq h.read s.zoom, zoom_preparation]
  simp only [Session.step, Session.perform_eq]
  cases happly : (x.request.edit x.freshId).apply (x.request.zoomFrom s.zoom) s.label with
  | error err => exact status_refusedEdit err
  | ok r =>
    obtain ⟨hlabel, helement⟩ := sendable_edit h.label_sendable hx happly
    simp only [sendable_answer x.request hlabel helement]
    rfl

/-- One step: client and session stay together through an exchange. -/
theorem Together.exchange {s : Session} (h : Together document s) (hx : x.request.Finite) :
    Together (received document (respond env document x)) (s.run x.operations) := by
  have hrun : s.run x.operations =
      ((s.run x.request.preparation).step (.edit (x.request.edit x.freshId))).1 := by
    simp only [Exchange.operations, Session.run, List.foldl_append, List.foldl_cons,
      List.foldl_nil]
  rw [hrun, respond_eq h.read s.zoom, zoom_preparation]
  simp only [Session.step, Session.perform_eq]
  cases happly : (x.request.edit x.freshId).apply (x.request.zoomFrom s.zoom) s.label with
  | error err =>
    simp only [received_refusedEdit]
    exact ⟨h.read, h.finite⟩
  | ok r =>
    obtain ⟨hlabel, helement⟩ := sendable_edit h.label_sendable hx happly
    simp only [sendable_answer x.request hlabel helement, received_answer]
    have hnext (s : Session) (edit : Edit) : (s.accept edit r).label = r.label :=
      Session.ignoresSelection_label.accept s edit r
    refine ⟨?_, ?_⟩
    · rw [hnext]
      exact Label.read_toJson .request .joined hlabel.onePictureEach
    · rw [hnext]
      exact hlabel.finite

theorem together_after {s : Session} (exchanges : List Exchange) (h : Together document s)
    (hexchanges : ∀ x ∈ exchanges, x.request.Finite) :
    Together (heldAfter env document exchanges) (sessionAfter s exchanges) := by
  -- The client sends back what it received, so the next exchange starts from another document.
  induction exchanges generalizing document s with
  | nil => exact h
  | cons x exchanges ih =>
    have hrun : sessionAfter s (x :: exchanges) = sessionAfter (s.run x.operations) exchanges := by
      simp only [sessionAfter, Session.run, List.flatMap_cons, List.foldl_append]
    rw [hrun]
    apply ih
    · exact h.exchange (hexchanges x List.mem_cons_self)
    · intro y hy
      exact hexchanges y (List.mem_cons_of_mem x hy)

/-- Whatever is asked of the editor by requests, the client holds the label of a session with the
same edits; and the status of each response says whether the edit succeeds there, names an id that
is taken, or one that is not found. -/
theorem requests_follow_session (env : Environment Id) (document : Json) (s : Session)
    (exchanges : List Exchange) (hread : Label.read .request document = .ok s.label)
    (hfinite : s.label.Finite) (hexchanges : ∀ x ∈ exchanges, x.request.Finite) :
    Label.read .request (heldAfter env document exchanges) = .ok (sessionAfter s exchanges).label ∧
    ∀ x : Exchange, x.request.Finite →
      let status := (respond env (heldAfter env document exchanges) x).status
      let result := (((sessionAfter s exchanges).run x.request.preparation).step
        (.edit (x.request.edit x.freshId))).2
      (status = 409 ↔ ∃ id place, result = .error (.duplicateId id place)) ∧
        (status = 404 ↔ ∃ target place, result = .error (.notFound target place)) ∧
        (status = 200 ↔ ∃ outcome, result = .ok outcome) := by
  have htogether : Together (heldAfter env document exchanges) (sessionAfter s exchanges) :=
    together_after exchanges ⟨hread, hfinite⟩ hexchanges
  refine ⟨htogether.read, ?_⟩
  intro x hx status result
  have hstatus : status = statusOf result := htogether.status_respond hx
  rw [hstatus]
  cases result with
  | ok outcome => simp [statusOf]
  | error e => cases e <;> simp [statusOf]

/-- Standard settings, with a rendering service that never answers. -/
def withoutPreviews : Environment Id := ⟨Settings.standard, "", fun _ => .failure "", ""⟩

def textAddition : Exchange where
  request :=
    .add [("section", .str "header"), ("element", (droppedElement "a" .text).toJson .joined)]
      .header (droppedElement "a" .text) rfl (by decide +kernel)
  freshId := ""

def boxDrop (freshId : String) : Exchange where
  request :=
    .drag [("event", (ToolDrop.mk .box .footer).toJson)] (.drop ⟨.box, .footer⟩) 1.25 rfl rfl
  freshId := freshId

/-- An id that the client has added to the header is taken in the footer as well. -/
theorem taken_id_is_conflict :
    (respond withoutPreviews (heldAfter withoutPreviews (.obj []) [textAddition])
      (boxDrop "a")).status = 409 ∧
    (respond withoutPreviews (heldAfter withoutPreviews (.obj []) [textAddition])
      (boxDrop "b")).status = 200 := by
  have hexchanges : ∀ x ∈ [textAddition], x.request.Finite := by
    simp only [List.forall_mem_singleton]
    exact (droppedElement_sendable "a" .text).finite
  obtain ⟨-, hstatus⟩ := requests_follow_session withoutPreviews (.obj [])
    (Session.start Label.blank defaultHistoryLimit) [textAddition] rfl Label.finite_blank hexchanges
  obtain ⟨htaken, -, -⟩ := hstatus (boxDrop "a") trivial
  obtain ⟨-, -, hfree⟩ := hstatus (boxDrop "b") trivial
  exact ⟨htaken.mpr ⟨"a", .header, rfl⟩, hfree.mpr ⟨_, rfl⟩⟩

end ThermalLabel.Service
