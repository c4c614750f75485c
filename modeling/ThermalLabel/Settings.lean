import ThermalLabel.Preview
import ThermalLabel.Text.Numeral
import ThermalLabel.Text.Quoted
/-!
# Settings

The settings of the service, read from named texts. A missing text leaves the usual value; one that
is no number where a number belongs is refused. Texts are read in a fixed order, and the first
refusal counts.
-/

namespace ThermalLabel

structure Settings where
  /-- Uploads of more bytes are refused. -/
  maxUploadSize : Int
  previewUrl : String
  /-- In seconds. -/
  previewTimeout : Float
  /-- Body rows of a label for which none are asked for. -/
  bodyRows : Int
  imageMaxWidth : Int
  imageMaxHeight : Int
  /-- Pages that may call the service. -/
  origins : List String
  port : Int
deriving DecidableEq

inductive SettingError where
  | notInteger (text : String)
  | notNumber (text : String)
deriving DecidableEq

/-- A message shows at most this much of an integer that could not be read. -/
def shownLength : Nat := 200

def SettingError.message : SettingError → String
  | .notInteger text =>
    "invalid literal for int() with base 10: " ++
      String.ofList ((quoted text).toList.take shownLength)
  | .notNumber text => "could not convert string to float: " ++ quoted text

namespace Settings

/-- What holds when nothing is set. -/
def standard : Settings where
  maxUploadSize := 10485760
  previewUrl := Preview.defaultUrl
  previewTimeout := Preview.defaultTimeout
  bodyRows := 3
  imageMaxWidth := 800
  imageMaxHeight := 800
  origins := ["http://localhost:5173", "http://localhost:3000", "http://localhost:8000"]
  port := 8000

private def integer (env : List (String × String)) (name : String) (default : Int) :
    Except SettingError Int :=
  match env.lookup name with
  | none => .ok default
  | some text =>
    match settingInteger? text with
    | some n => .ok n
    | none => .error (.notInteger text)

private def number (env : List (String × String)) (name : String) (default : Float) :
    Except SettingError Float :=
  match env.lookup name with
  | none => .ok default
  | some text =>
    match settingBinary? text with
    | some x => .ok x
    | none => .error (.notNumber text)

/-- The parts of a list with commas, trimmed, without the empty ones. -/
def commaParts (text : String) : List String :=
  ((text.splitOn ",").map fun part => String.ofList (trimBy isSeparator part.toList)).filter (· ≠ "")

def read (env : List (String × String)) : Except SettingError Settings := do
  let maxUploadSize ← integer env "MAX_UPLOAD_SIZE" standard.maxUploadSize
  let previewUrl := ((env.lookup "LABELARY_URL").map withoutFinalSlashes).getD standard.previewUrl
  let previewTimeout ← number env "LABELARY_TIMEOUT" standard.previewTimeout
  let bodyRows ← integer env "DEFAULT_MOCK_ITEMS" standard.bodyRows
  let imageMaxWidth ← integer env "IMAGE_MAX_WIDTH" standard.imageMaxWidth
  let imageMaxHeight ← integer env "IMAGE_MAX_HEIGHT" standard.imageMaxHeight
  let origins := ((env.lookup "CORS_ORIGINS").map commaParts).getD standard.origins
  let port ← integer env "PORT" standard.port
  return {
    maxUploadSize, previewUrl, previewTimeout, bodyRows, imageMaxWidth, imageMaxHeight, origins,
    port }

def toJson (s : Settings) : Json :=
  .obj [("MAX_UPLOAD_SIZE", .int s.maxUploadSize), ("LABELARY_URL", .str s.previewUrl),
    ("LABELARY_TIMEOUT", .float s.previewTimeout), ("DEFAULT_MOCK_ITEMS", .int s.bodyRows),
    ("IMAGE_MAX_WIDTH", .int s.imageMaxWidth), ("IMAGE_MAX_HEIGHT", .int s.imageMaxHeight),
    ("CORS_ORIGINS", .arr (s.origins.map fun origin : String => .str origin)),
    ("PORT", .int s.port)]

end Settings
end ThermalLabel
