import ThermalLabel.Text.Basic
/-!
# JSON values

Numbers keep the difference between an integer of any size and a binary number, and objects keep
the order in which their keys arrived. A caller of the library may hand over bytes as well.
-/

namespace ThermalLabel

/-- A number of a document: written without point and exponent it is an integer of any size. -/
inductive Numeral where
  | int (value : Int)
  | float (value : Float)
deriving DecidableEq

/-- A value that is handed over: one of JSON, or bytes. The members of an object have distinct keys,
in order of arrival. -/
inductive Json where
  | null
  | bool (value : Bool)
  | num (value : Numeral)
  | str (value : Text)
  /-- Bytes in the place of a text. No document holds any; only a caller of the library has them. -/
  | bytes (data : ByteArray)
  | arr (items : List Json)
  | obj (members : List (String × Json))
deriving Inhabited

namespace Numeral

def toFloat : Numeral → Float
  | int n => Float.ofInt n
  | float x => x

/-- Zero in either form. -/
def isZero : Numeral → Bool
  | int n => n == 0
  | float x => x == 0.0

end Numeral

namespace Json

def int (n : Int) : Json := .num (.int n)

def float (x : Float) : Json := .num (.float x)

/-- An absent value is written as null. -/
def ofOption {α : Type} (f : α → Json) : Option α → Json
  | none => .null
  | some a => f a

/-- Absent, false, zero and everything empty count as false. -/
def isTruthy : Json → Bool
  | null => false
  | bool b => b
  | num n => !n.isZero
  | str s => s ≠ ""
  | bytes data => data.size ≠ 0
  | arr items => !items.isEmpty
  | obj members => !members.isEmpty

def isNull : Json → Bool
  | null => true
  | _ => false

/-- The value of a key in a list of members. -/
def member? (key : String) (members : List (String × Json)) : Option Json :=
  members.lookup key

/-- A member written into an object: a present key keeps its place, a new one goes to the end. -/
def put (key : String) (value : Json) : List (String × Json) → List (String × Json)
  | [] => [(key, value)]
  | (k, v) :: rest => if k = key then (key, value) :: rest else (k, v) :: put key value rest

/-- The members of `changes` written over those of `base`, one after the other. -/
def overlay (base changes : List (String × Json)) : List (String × Json) :=
  changes.foldl (fun acc m => put m.1 m.2 acc) base

mutual

/-- A half of a surrogate pair stands alone in a text of the value. -/
def hasHalf : Json → Bool
  | str s => s.characters?.isNone
  | arr items => anyHalf items
  | obj members => anyMemberHalf members
  | _ => false

def anyHalf : List Json → Bool
  | [] => false
  | v :: rest => hasHalf v || anyHalf rest

def anyMemberHalf : List (String × Json) → Bool
  | [] => false
  | (_, v) :: rest => hasHalf v || anyMemberHalf rest

end

mutual

/-- A binary number that is infinite or not a number occurs somewhere in the value. -/
def hasNonFinite : Json → Bool
  | num (.float x) => !x.isFinite
  | arr items => anyNonFinite items
  | obj members => anyMemberNonFinite members
  | _ => false

def anyNonFinite : List Json → Bool
  | [] => false
  | v :: rest => hasNonFinite v || anyNonFinite rest

def anyMemberNonFinite : List (String × Json) → Bool
  | [] => false
  | (_, v) :: rest => hasNonFinite v || anyMemberNonFinite rest

end

end Json
end ThermalLabel
