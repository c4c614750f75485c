import ThermalLabel.Image.Encode
import ThermalLabel.Json.Parser
import ThermalLabel.Preview
import ThermalLabel.Schema.Record
import ThermalLabel.Settings
/-!
# Requests and responses

A request names a path and carries a document, a text of some type, or a form; a response is a
status with a document, a picture or a text. The content type of a text decides whether it is read
as a document.
-/

namespace ThermalLabel.Service

open Schema

structure Upload where
  contentType : String
  file : Image.ImageFile

inductive Body where
  | empty
  | document (value : Json)
  | text (content contentType : String)
  | form (fields : List (String × String)) (file : Option Upload)

structure Request where
  method : String
  path : String
  query : List (String × String)
  body : Body

inductive Content where
  | document (value : Json)
  | encodedImage (result : Image.Encoded)
  /-- The picture of a rendering service. -/
  | picture (data : Text)
  | text (content : Text)
  | nothing

def Content.type? : Content → Option Text
  | document _ | encodedImage _ => some "application/json"
  | picture _ => some "image/png"
  | text _ => some "text/plain; charset=utf-8"
  | nothing => none

structure Response where
  status : Nat
  content : Content

namespace Response

def document (status : Nat) (value : Json) : Response := ⟨status, .document value⟩

def refusal (status : Nat) (message : Text) : Response :=
  document status (.obj [("detail", .str message)])

/-- A refusal with the issues of a part of the request. -/
def issues (part : String) (issues : List Issue) : Response :=
  document 422 (.obj [("detail",
    issuesToJson (issues.map fun i => ⟨.key part :: i.path, i.fault⟩))])

def internalError : Response := ⟨500, .text "Internal Server Error"⟩

/-- A response as it is sent. A document with a text that has no encoding cannot be. -/
def sent (r : Response) : Response :=
  match r.content with
  | .document value => if value.hasHalf then internalError else r
  | _ => r

end Response

/-- The surroundings of the service: its settings, the time, the rendering service, and an id that
no element has had. -/
structure Environment (m : Type → Type) where
  settings : Settings
  now : String
  render : Preview.Service m
  freshId : String

/-- A type of content without its parameters, in lower case. -/
def bareType (contentType : String) : String :=
  String.ofList ((trimBy isSeparator (contentType.toList.takeWhile (· ≠ ';'))).map Char.toLower)

/-- The type of a text that is a document. Without a type every text is one. -/
def isDocumentType (contentType : String) : Bool :=
  contentType = "" ||
    match (bareType contentType).splitOn "/" with
    | ["application", kind] => kind = "json" || kind.endsWith "+json"
    | _ => false

/-- A text without the mark that may stand in front of it. -/
def withoutMark (s : String) : String :=
  match s.toList with
  | '\uFEFF' :: rest => String.ofList rest
  | _ => s

/-- The document of a body. A body of another type counts as a plain value. -/
def Body.toDocument : Body → Except (List Issue) Json
  | .empty => .error [⟨[], .missing⟩]
  | .document v => .ok v
  | .text content contentType =>
    if content = "" then .error [⟨[], .missing⟩]
    else if isDocumentType contentType then
      match Json.parse (withoutMark content) with
      | .ok v => .ok v
      | .error offset => .error [⟨[.index offset], .notJson⟩]
    else .ok (.str content)
  | .form fields file =>
    if fields.isEmpty && file.isNone then .error [⟨[], .missing⟩] else .ok (.str "")

/-- A record in the body of a request. -/
def Body.read {α : Type} (body : Body) (check : Json → Checked α) : Except (List Issue) α :=
  body.toDocument.bind fun v => (check v).toExcept

end ThermalLabel.Service
