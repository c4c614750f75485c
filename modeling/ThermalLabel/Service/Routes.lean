import ThermalLabel.DataSource
import ThermalLabel.Editor.Session
import ThermalLabel.LinePrint.Label
import ThermalLabel.Service.Exchange
import ThermalLabel.Service.RequestBody
import ThermalLabel.Zpl.Document
/-!
# Routes of the service

Each path of the service takes one kind of request. Compiling, encoding and previewing explain
their failures; the editor explains only an id that is taken or not found.
-/

namespace ThermalLabel.Service

open Schema Editor

/-- The members that every success begins with. -/
def success (members : List (String × Json)) : Json := .obj (("status", .str "success") :: members)

/-- A request answered, its body read by a check. -/
def answering {α : Type} (body : Body) (check : Json → Checked α) (answer : α → Response) :
    Response :=
  match body.read check with
  | .ok request => answer request
  | .error issues => .issues "body" issues

/-- A compiled text, or why there is none. -/
def compiled (result : Except NumberError Text) (members : Text → List (String × Json)) :
    Response :=
  match result with
  | .ok text => .document 200 (success (members text))
  | .error e => .refusal 500 e.message

/-- The options of a request, or those of the settings. -/
def CompileRequest.optionsOr (r : CompileRequest) (settings : Settings) : CompileOptions :=
  r.options.getD ⟨settings.bodyRows, false⟩

def compileZpl (settings : Settings) (now : String) (body : Body) : Response :=
  answering body (CompileRequest.read .request) fun r =>
    let options := r.optionsOr settings
    compiled (Zpl.documentText .standard options.mode r.label options.rows) fun text =>
      [("zpl_content", .str text), ("timestamp", .str now)]

def compileElement (body : Body) : Response :=
  answering body (ElementRequest.read .request) fun r =>
    compiled (Zpl.elementText .standard (modeOf r.useSampleData) r.element ⟨r.offset, none⟩)
      fun text => [("zpl_content", .str text)]

def compileLinePrint (settings : Settings) (now : String) (body : Body) : Response :=
  answering body (CompileRequest.read .request) fun r =>
    let options := r.optionsOr settings
    compiled (LinePrint.labelText .standard options.mode r.label options.rows) fun text =>
      [("text_content", .str text), ("timestamp", .str now)]

structure EncodeRequest where
  upload : Upload
  maxWidth : Int
  maxHeight : Int

/-- An integer in a form. An empty field counts as absent. -/
def formInteger (fields : List (String × String)) (name : String) (default : Int) : Checked Int :=
  match (fields.lookup name).filter (· ≠ "") with
  | some text => (readInt (.str text)).within (.key name)
  | none => .ok default

/-- The file of a form. A text in its place is none. -/
def formFile (fields : List (String × String)) (file : Option Upload) : Checked Upload :=
  match file with
  | some upload => .ok upload
  | none =>
    match (fields.lookup "file").filter (· ≠ "") with
    | some _ => .bad [⟨[.key "file"], .notFile⟩]
    | none => .bad [⟨[.key "file"], .missing⟩]

/-- An image to be encoded, from a form. A body that is no form is an empty one. -/
def EncodeRequest.ofBody (settings : Settings) (body : Body) : Checked EncodeRequest :=
  let (fields, file) := match body with
    | .form fields file => (fields, file)
    | _ => ([], none)
  EncodeRequest.mk <$> formFile fields file
    <*> formInteger fields "max_width" settings.imageMaxWidth
    <*> formInteger fields "max_height" settings.imageMaxHeight

/-- An encoded image, unless the upload is refused. Its type is looked at first, then the box, then
its size. -/
def EncodeRequest.answer (settings : Settings) (r : EncodeRequest) : Response :=
  if !r.upload.contentType.startsWith "image/" then
    .refusal 400 "Invalid file type. Only images are allowed."
  else if r.maxWidth < 1 ∨ r.maxHeight < 1 then
    .refusal 400 "max_width and max_height must be positive"
  else if settings.maxUploadSize < r.upload.file.size then
    .refusal 413 "Uploaded image is too large"
  else
    match Image.encode r.upload.file r.maxWidth r.maxHeight with
    | .ok result => ⟨200, .encodedImage result⟩
    | .error e => .refusal (if e.blamesFile then 400 else 500) e.message

def encodeImage (settings : Settings) (body : Body) : Response :=
  match EncodeRequest.ofBody settings body with
  | .ok r => r.answer settings
  | .bad issues => .issues "body" issues

/-- The client of the rendering service that the settings name. -/
def previewClient (settings : Settings) : Preview.Client :=
  ⟨settings.previewUrl, .float settings.previewTimeout⟩

/-- A picture of a label, or why there is none. -/
def pictured : Except Preview.LabelError Text → Response
  | .ok data => ⟨200, .picture data⟩
  | .error (.number e) => .refusal 500 e.message
  | .error (.preview (.unencodable e)) => .refusal 500 e.message
  | .error (.preview e) => .refusal 502 e.message

def previewZpl {m : Type → Type} [Monad m] (env : Environment m) (body : Body) : m Response :=
  match body.read (PreviewRequest.read .request) with
  | .error issues => pure (.issues "body" issues)
  | .ok r =>
    pictured <$> (previewClient env.settings).renderLabel env.render r.label r.rows

/-- A name in the query of a request, if it is there. -/
def queryName {α : Type} (names : List (String × α)) (query : List (String × String))
    (name : String) : Checked (Option α) :=
  match query.lookup name with
  | some text => ((readName names (.str text)).map some).within (.key name)
  | none => .ok none

/-- The data sources that an element may be bound to, as a query describes it. -/
def queriedSources (query : List (String × String)) : Checked (List DataSource) :=
  (fun place kind barcode => DataSource.offered (place.getD .body) kind barcode)
    <$> queryName SectionName.names query "section"
    <*> queryName ElementKind.names query "element_type"
    <*> queryName BarcodeKind.names query "barcode_type"

def listDataSources (query : List (String × String)) : Response :=
  match queriedSources query with
  | .ok sources =>
    .document 200 (success [("data_sources", .arr (sources.map DataSource.toJson))])
  | .bad issues => .issues "query" issues

/-- A document that can be sent holds only numbers that have a numeral. -/
def sendable (value : Json) : Response :=
  if value.hasNonFinite then .internalError else .document 200 value

def refusedEdit (e : EditError) : Response :=
  match e, e.message? with
  | .duplicateId _ _, some message => .refusal 409 message
  | .notFound _ _, some message => .refusal 404 message
  | _, _ => .internalError

/-- One edit of a posted label, in a session of its own. -/
def editing (label : Label) (zoom : Float) (edit : Edit)
    (members : Option Element → Label → List (String × Json)) : Response :=
  let session := (Session.start label defaultHistoryLimit).setZoom zoom
  match session.perform edit with
  | (next, .ok element) => sendable (success (members element next.label))
  | (_, .error e) => refusedEdit e

def addElement (body : Body) : Response :=
  answering body (AddElementRequest.read .request) fun r =>
    editing r.label defaultZoom (.add (.ok r.place) r.element) fun _ label =>
      [("label", label.toJson .joined)]

def editOf (freshId : String) : DragEvent → Edit
  | .drop event => .dropTool event freshId
  | .move event => .moveElement event

def drag (freshId : String) (body : Body) : Response :=
  answering body (DragRequest.read .request) fun r =>
    editing r.label r.zoom (editOf freshId r.event) fun element label =>
      [("element", .ofOption (Element.toJson .joined) element), ("label", label.toJson .joined)]

variable {m : Type → Type} [Monad m]

/-- A path of the service, with the one method that it takes. -/
structure Route (m : Type → Type) where
  method : String
  path : String
  answer : Environment m → Request → m Response

/-- A route that needs nothing but the request and what is at hand. -/
def Route.plain (method path : String) (answer : Environment m → Request → Response) : Route m :=
  ⟨method, path, fun env request => pure (answer env request)⟩

def routes : List (Route m) :=
  [.plain "POST" "/compile/zpl" fun env r => compileZpl env.settings env.now r.body,
    .plain "POST" "/compile/element" fun _ r => compileElement r.body,
    .plain "POST" "/compile/line_print" fun env r => compileLinePrint env.settings env.now r.body,
    .plain "POST" "/encode_image" fun env r => encodeImage env.settings r.body,
    ⟨"POST", "/preview_zpl", fun env r => previewZpl env r.body⟩,
    .plain "GET" "/data_sources" fun _ r => listDataSources r.query,
    .plain "POST" "/editor/add_element" fun _ r => addElement r.body,
    .plain "POST" "/editor/drag" fun env r => drag env.freshId r.body]

def routeOf? (path : String) : Option (Route m) := routes.find? fun r => r.path = path

/-- The same path with a slash at its end added or taken away. -/
def otherPath (path : String) : String :=
  if path.endsWith "/" then withoutFinalSlashes path else path ++ "/"

/-- The answer to a request. A path that differs from a known one by a slash at its end is
redirected. -/
def dispatch (env : Environment m) (request : Request) : m Response :=
  match routeOf? request.path with
  | some route =>
    if request.method = route.method then route.answer env request
    else pure (.refusal 405 "Method Not Allowed")
  | none =>
    match (routeOf? (otherPath request.path) : Option (Route m)) with
    | some _ => pure ⟨307, .nothing⟩
    | none => pure (.refusal 404 "Not Found")

/-- The response to a request, as it is sent. -/
def handle (env : Environment m) (request : Request) : m Response :=
  Response.sent <$> dispatch env request

end ThermalLabel.Service
