import ThermalLabel.Schema.Checked
import ThermalLabel.Number.Rounding
import ThermalLabel.Text.Numeral
/-!
# Reading scalars

Texts are taken as they are. Numbers, integers and truth values are also read from each other and
from text wherever that loses nothing. Bytes count as the text that they encode.
-/

namespace ThermalLabel.Schema

/-- A text that spells something else. A half of a surrogate pair spells nothing. -/
def readSpelling {α : Type} (read : String → Checked α) (t : Text) : Checked α :=
  match t.characters? with
  | some s => read s
  | none => .fault .notUnicode

/-- The text that bytes encode, read further, or a fault where they encode none. -/
def readBytes {α : Type} (unreadable : Fault) (read : String → Checked α) (data : ByteArray) :
    Checked α :=
  match String.fromUTF8? data with
  | some s => read s
  | none => .fault unreadable

def readText : Json → Checked Text
  | .str t => .ok t
  | .bytes data => readBytes .notUnicode (fun s => .ok s) data
  | _ => .fault .notText

def floatOfText (s : String) : Checked Float :=
  match fieldBinary? s with
  | some x => .ok x
  | none => .fault .unreadableNumber

/-- A binary number: a number, a truth value as one or zero, or a numeral. -/
def readFloat : Json → Checked Float
  | .num (.float x) => .ok x
  | .num (.int n) =>
    match ofInteger n with
    | .ok x => .ok x
    | .error _ => .fault .notNumber
  | .bool b => .ok (if b then 1.0 else 0.0)
  | .str t => readSpelling floatOfText t
  | .bytes data => readBytes .unreadableNumber floatOfText data
  | _ => .fault .notNumber

def intOfText (s : String) : Checked Int :=
  match fieldInteger? s with
  | some n => .ok n
  | none => .fault .unreadableInteger

/-- An integer: an integer of any size, a number without a fraction, a truth value, or a numeral. -/
def readInt : Json → Checked Int
  | .num (.int n) => .ok n
  | .num (.float x) =>
    match wholeValue? x with
    | some n => .ok n
    | none => .fault (if x.isFinite then .fractionalInteger else .infiniteInteger)
  | .bool b => .ok (if b then 1 else 0)
  | .str t => readSpelling intOfText t
  | .bytes data => readBytes .unreadableInteger intOfText data
  | _ => .fault .notInteger

def readIntFrom (bound : Int) (v : Json) : Checked Int :=
  (readInt v).andThen fun n => if bound ≤ n then .ok n else .fault (.below bound)

def readNat (v : Json) : Checked Nat :=
  (readIntFrom 0 v).map Int.toNat

def trueWords : List String := ["true", "t", "yes", "y", "on", "1"]

def falseWords : List String := ["false", "f", "no", "n", "off", "0"]

def boolOfInt (n : Int) : Checked Bool :=
  if n = 0 then .ok false else if n = 1 then .ok true else .fault .unreadableBoolean

def boolOfText (s : String) : Checked Bool :=
  let word := String.ofList (s.toList.map Char.toLower)
  if trueWords.contains word then .ok true
  else if falseWords.contains word then .ok false
  else .fault .unreadableBoolean

/-- A truth value: one itself, the numbers zero and one, or a word in any case. -/
def readBool : Json → Checked Bool
  | .bool b => .ok b
  | .num (.int n) => boolOfInt n
  | .num (.float x) =>
    match wholeValue? x with
    | some n => boolOfInt n
    | none => .fault .notBoolean
  | .str t => readSpelling boolOfText t
  | .bytes data => readBytes .unreadableBoolean boolOfText data
  | _ => .fault .notBoolean

def namedBy {α : Type} (names : List (String × α)) (s : String) : Checked α :=
  match names.lookup s with
  | some a => .ok a
  | none => .fault (.notAmong (names.map Prod.fst))

/-- One of a list of names, spelled exactly. -/
def readName {α : Type} (names : List (String × α)) : Json → Checked α
  | .str t => readSpelling (namedBy names) t
  | .bytes data => readBytes (.notAmong (names.map Prod.fst)) (namedBy names) data
  | _ => .fault (.notAmong (names.map Prod.fst))

def readLiteral (name : String) : Json → Checked Unit
  | .str t => readSpelling (fun s => if s = name then .ok () else .fault (.notLiteral name)) t
  | _ => .fault (.notLiteral name)

def readList {α : Type} (check : Json → Checked α) : Json → Checked (List α)
  | .arr items => Checked.eachFrom check 0 items
  | _ => .fault .notList

def readOptional {α : Type} (check : Json → Checked α) : Json → Checked (Option α)
  | .null => .ok none
  | v => (check v).map some

end ThermalLabel.Schema
