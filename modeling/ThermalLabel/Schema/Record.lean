import ThermalLabel.Schema.Checked
/-!
# Reading records

A record is an object whose members are found by name. A field may have two spellings; where both
occur the first one counts and the other is not looked at. Unknown members are ignored.
-/

namespace ThermalLabel.Schema

/-- The two ways in which the members of a written record are named. -/
inductive Spelling where
  /-- Words run together, each but the first with a capital. -/
  | joined
  /-- Words in lower case with underscores between them. -/
  | underscored
deriving DecidableEq, Repr

/-- The name of a field in both spellings. -/
structure FieldName where
  joined : String
  underscored : String
deriving DecidableEq, Repr

namespace FieldName

def plain (name : String) : FieldName := ⟨name, name⟩

def spelled (f : FieldName) : Spelling → String
  | .joined => f.joined
  | .underscored => f.underscored

/-- The member that a field reads, with the key it was found under. -/
def find? (f : FieldName) (members : List (String × Json)) : Option (String × Json) :=
  match members.lookup f.joined with
  | some v => some (f.joined, v)
  | none => (members.lookup f.underscored).map fun v => (f.underscored, v)

end FieldName

variable {α : Type}

def required (f : FieldName) (check : Json → Checked α) (members : List (String × Json)) :
    Checked α :=
  match f.find? members with
  | some (key, v) => (check v).within (.key key)
  | none => .bad [⟨[.key f.joined], .missing⟩]

/-- A field with a value for when it is absent. -/
def withDefault (f : FieldName) (default : α) (check : Json → Checked α)
    (members : List (String × Json)) : Checked α :=
  match f.find? members with
  | some (key, v) => (check v).within (.key key)
  | none => .ok default

/-- Where a document comes from decides what is said of a value that is no object. -/
inductive Origin where
  /-- A value handed to the library. -/
  | value
  /-- The body of a request. -/
  | request
deriving DecidableEq, Repr

/-- The fault of a value that should be the record of a name. -/
def Origin.recordFault (origin : Origin) (name : String) : Fault :=
  match origin with
  | .value => .notRecord name
  | .request => .withoutFields

/-- The record of a name from the members of an object. -/
def readRecord (origin : Origin) (name : String) (check : List (String × Json) → Checked α) :
    Json → Checked α
  | .obj members => check members
  | _ => .fault (origin.recordFault name)

end ThermalLabel.Schema
