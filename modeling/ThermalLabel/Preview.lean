import ThermalLabel.Zpl.Document
import ThermalLabel.Json.Basic
import ThermalLabel.Number.Written
import ThermalLabel.Text.Blank
import ThermalLabel.Text.Encoding
/-!
# Previews of labels

A rendering service turns a printer document into a picture. It is called at an address that states
the size of the label in inches, and it either answers or cannot be reached. How the service is
called is a parameter here. A document that has no encoding is not sent.
-/

namespace ThermalLabel.Preview

def millimetersPerInch : Float := 25.4

/-- The service that is called unless another is named. -/
def defaultUrl : String := "https://api.labelary.com/v1"

/-- The seconds after which a call is given up, unless stated otherwise. -/
def defaultTimeout : Float := 10.0

/-- Where the service is and how long it may take. -/
structure Client where
  baseUrl : String
  timeout : Numeral
deriving DecidableEq

/-- A client for an address, the usual one if there is none. Slashes at its end are dropped. -/
def Client.make (baseUrl : Option String) (timeout : Option Numeral) : Client where
  baseUrl := withoutFinalSlashes ((baseUrl.filter (· ≠ "")).getD defaultUrl)
  timeout := timeout.getD (.float defaultTimeout)

/-- The address for a label of a size in millimetres. No label is less than an inch high. -/
def Client.labelUrl (client : Client) (width height : Float) : String :=
  client.baseUrl ++ "/printers/" ++ toString dotsPerMillimeter ++ "dpmm/labels/" ++
    twoPlacesText (width / millimetersPerInch) ++ "x" ++
    twoPlacesText (atLeast 1.0 (height / millimetersPerInch)) ++ "/0/"

/-- What the service is sent: the bytes of a document, with the wish for a picture. -/
structure Call where
  url : String
  data : ByteArray
  timeout : Numeral

/-- The form of picture that is asked for. -/
def accepted : String := "image/png"

inductive Reply where
  | answer (status : Int) (text : Text)
  /-- No answer, and why. -/
  | failure (reason : Text)
deriving DecidableEq

/-- A rendering service, as an effect that turns a call into a reply. -/
abbrev Service (m : Type → Type) := Call → m Reply

def isSuccess (status : Int) : Bool := status < 400 || 600 ≤ status

/-- Why there is no picture of a document. -/
inductive PreviewError where
  /-- The document has no encoding, so there is nothing to send. -/
  | unencodable (cause : EncodingError)
  | unreachable (reason : Text)
  | refused (status : Int) (text : Text)
deriving DecidableEq

def PreviewError.message : PreviewError → Text
  | .unencodable cause => cause.message
  | .unreachable reason => "Rendering service unreachable: " ++ reason
  | .refused status text => "Rendering service returned " ++ toString status ++ ": " ++ text

def Reply.picture : Reply → Except PreviewError Text
  | answer status text => if isSuccess status then .ok text else .error (.refused status text)
  | failure reason => .error (.unreachable reason)

/-- Why there is no picture of a label. -/
inductive LabelError where
  /-- The label cannot be compiled. -/
  | number (cause : NumberError)
  | preview (cause : PreviewError)
deriving DecidableEq

/-- The call for the bytes of a document of a size in millimetres. -/
def Client.callFor (client : Client) (data : ByteArray) (width height : Float) : Call :=
  ⟨client.labelUrl width height, data, client.timeout⟩

/-- A label compiled with sample values, and its height in millimetres. -/
def sampleDocument (label : Label) (rows : Int) : Except NumberError (Text × Float) := do
  let document ← Zpl.documentText .standard .sample label rows
  return (document, ← Zpl.totalHeight label rows)

variable {m : Type → Type} [Monad m]

/-- A document of a size in millimetres sent to the service, if it can be encoded. -/
def Client.render (client : Client) (service : Service m) (document : Text)
    (width height : Float) : m (Except PreviewError Text) :=
  match document.encode with
  | .error e => pure (.error (.unencodable e))
  | .ok data => Reply.picture <$> service (client.callFor data width height)

/-- A sample of a label sent to the service. A label that cannot be compiled is not sent. -/
def Client.renderLabel (client : Client) (service : Service m) (label : Label) (rows : Int) :
    m (Except LabelError Text) :=
  match sampleDocument label rows with
  | .error e => pure (.error (.number e))
  | .ok (document, height) =>
    Except.mapError .preview <$> client.render service document label.canvasWidth height

end ThermalLabel.Preview
