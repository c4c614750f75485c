import ThermalLabel.DataSource
import ThermalLabel.Number.Rounding
import ThermalLabel.Schema.Checked
/-!
# Naming elements and sections

A client names the section and the element that an edit is about. Either name may be wrong; what is
wrong is found out where the edit looks it up.
-/

namespace ThermalLabel.Editor

/-- An element as a client names it. Only a text can be an id; any other value names no element. -/
inductive ElementRef where
  | id (text : Text)
  | other (value : Json)

namespace ElementRef

def ofJson : Json → ElementRef
  | .str s => id s
  | v => other v

def toJson : ElementRef → Json
  | id s => .str s
  | other v => v

def nothing : ElementRef := other .null

/-- Something is named, be it an element or not. -/
def isPresent (r : ElementRef) : Bool := r.toJson.isTruthy

/-- Both name the same id. -/
def sameId : ElementRef → ElementRef → Bool
  | id a, id b => a == b
  | _, _ => false

def shown (r : ElementRef) : Text := r.toJson.plainText

end ElementRef

/-- A section as a client names it. -/
abbrev SectionRef := Except UnknownName SectionName

/-- A section as a client names it in a selection, where it may be left out. -/
def SectionRef.optional (v : Json) : Option SectionRef :=
  if v.isTruthy then some (SectionName.ofJson v) else none

inductive EditError where
  /-- The id is taken; the section is the one that the message names. -/
  | duplicateId (id : Text) (place : SectionName)
  | notFound (target : ElementRef) (place : SectionName)
  /-- A change of a name that only addresses the element. -/
  | reservedName (name : String)
  | unknownSection (cause : UnknownName)
  | invalid (issues : List Schema.Issue)
  | number (cause : NumberError)

/-- What is said of a refused edit, unless it is a list of issues. -/
def EditError.message? : EditError → Option Text
  | .duplicateId id place =>
    some ("Element id '" ++ id ++ "' already exists in section '" ++ place.name ++ "'")
  | .notFound target place =>
    some ("Element '" ++ target.shown ++ "' not found in section '" ++ place.name ++ "'")
  | .reservedName name =>
    some ("LabelStore.update_element() got multiple values for argument '" ++ name ++ "'")
  | .unknownSection cause => some cause.message
  | .invalid _ => none
  | .number cause => some cause.message

end ThermalLabel.Editor
