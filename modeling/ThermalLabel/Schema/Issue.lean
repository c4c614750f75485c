import ThermalLabel.Json.Literal
/-!
# Issues of a document

An issue says where in a document something is wrong and what. Each cause has one name and one
message.
-/

namespace ThermalLabel.Schema

inductive PathStep where
  | key (name : String)
  | index (i : Nat)
deriving DecidableEq, Repr

inductive Fault where
  | missing
  | notText
  /-- Bytes that encode no text, or half of a surrogate pair where something is to be spelled. -/
  | notUnicode
  | notNumber
  | unreadableNumber
  | notInteger
  | unreadableInteger
  | fractionalInteger
  | infiniteInteger
  | below (bound : Int)
  | notBoolean
  | unreadableBoolean
  | notAmong (names : List String)
  | notLiteral (name : String)
  | notList
  /-- Not an object where the record of that name was expected. -/
  | notRecord (name : String)
  /-- Not an object, in a place that would also take other values with fields. -/
  | withoutFields
  | tagMissing (tag : String)
  | tagUnknown (tag text : String) (names : List String)
  | twoImageSources
  | notFile
  | notJson
deriving DecidableEq, Repr

structure Issue where
  path : List PathStep
  fault : Fault
deriving DecidableEq, Repr

private def listed (names : List String) : String :=
  ", ".intercalate (names.map fun n => "'" ++ n ++ "'")

namespace Fault

def kind : Fault → String
  | missing => "missing"
  | notText => "string_type"
  | notUnicode => "string_unicode"
  | notNumber => "float_type"
  | unreadableNumber => "float_parsing"
  | notInteger => "int_type"
  | unreadableInteger => "int_parsing"
  | fractionalInteger => "int_from_float"
  | infiniteInteger => "finite_number"
  | below _ => "greater_than_equal"
  | notBoolean => "bool_type"
  | unreadableBoolean => "bool_parsing"
  | notAmong _ => "enum"
  | notLiteral _ => "literal_error"
  | notList => "list_type"
  | notRecord _ => "model_type"
  | withoutFields => "model_attributes_type"
  | tagMissing _ => "union_tag_not_found"
  | tagUnknown .. => "union_tag_invalid"
  | twoImageSources => "value_error"
  | notFile => "value_error"
  | notJson => "json_invalid"

def message : Fault → String
  | missing => "Field required"
  | notText => "Input should be a valid string"
  | notUnicode => "Input should be a valid string, unable to parse raw data as a unicode string"
  | notNumber => "Input should be a valid number"
  | unreadableNumber => "Input should be a valid number, unable to parse string as a number"
  | notInteger => "Input should be a valid integer"
  | unreadableInteger => "Input should be a valid integer, unable to parse string as an integer"
  | fractionalInteger => "Input should be a valid integer, got a number with a fractional part"
  | infiniteInteger => "Input should be a finite number"
  | below bound => "Input should be greater than or equal to " ++ toString bound
  | notBoolean => "Input should be a valid boolean"
  | unreadableBoolean => "Input should be a valid boolean, unable to interpret input"
  | notAmong names => "Input should be " ++ alternatives names
  | notLiteral name => "Input should be " ++ alternatives [name]
  | notList => "Input should be a valid list"
  | notRecord name => "Input should be a valid dictionary or instance of " ++ name
  | withoutFields => "Input should be a valid dictionary or object to extract fields from"
  | tagMissing tag => "Unable to extract tag using discriminator '" ++ tag ++ "'"
  | tagUnknown tag text names =>
    "Input tag '" ++ text ++ "' found using '" ++ tag ++
      "' does not match any of the expected tags: " ++ listed names
  | twoImageSources =>
    "Value error, An image element uses either imageKey or zplImage, not both"
  | notFile => "Value error, Expected UploadFile, received: <class 'str'>"
  | notJson => "JSON decode error"

end Fault

def PathStep.toJson : PathStep → Json
  | key name => .str name
  | index i => .int i

/-- An issue as a document: its place, the name of the fault and the message. -/
def Issue.toJson (i : Issue) : Json :=
  .obj [("loc", .arr (i.path.map PathStep.toJson)), ("type", .str i.fault.kind),
    ("msg", .str i.fault.message)]

def issuesToJson (issues : List Issue) : Json := .arr (issues.map Issue.toJson)

end ThermalLabel.Schema
