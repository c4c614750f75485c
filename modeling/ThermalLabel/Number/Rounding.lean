import ThermalLabel.Number.Shortest
import ThermalLabel.Text.Basic
/-!
# From binary numbers to integers and back

Positions and sizes become whole dots by rounding the shortest decimal of a number, halves away
from zero; columns are floors of the exact value. Each step names the cause when a number has no
such integer, so that callers can report it or leave the element out.
-/

namespace ThermalLabel

/-- Why a number could not be turned into an integer, a text or another number. -/
inductive NumberError where
  /-- Rounding something that is not a number. -/
  | roundNotANumber
  /-- Rounding an infinity, or to more than twenty-eight digits. -/
  | roundTooManyDigits
  /-- The floor of something that is not a number. -/
  | floorNotANumber
  /-- The floor of an infinity. -/
  | floorInfinity
  | divisionByZero
  /-- A quotient of integers beyond every binary number. -/
  | quotientTooLarge
  /-- An integer beyond every binary number. -/
  | integerTooLarge
  /-- More repetitions of a character than a text can be asked for. -/
  | repetitionTooLong
deriving DecidableEq, Repr

def NumberError.message : NumberError → String
  | .roundNotANumber => "cannot convert NaN to integer"
  | .roundTooManyDigits => "[<class 'decimal.InvalidOperation'>]"
  | .floorNotANumber => "cannot convert float NaN to integer"
  | .floorInfinity => "cannot convert float infinity to integer"
  | .divisionByZero => "division by zero"
  | .quotientTooLarge => "integer division result too large for a float"
  | .integerTooLarge => "int too large to convert to float"
  | .repetitionTooLong => "cannot fit 'int' into an index-sized integer"

/-- Integers of more digits than this are not rounded to. -/
def maxRoundedDigits : Nat := 28

/-- A decimal rounded to the nearest integer, halves away from zero, within twenty-eight digits. -/
def Decimal.round? (d : Decimal) : Except NumberError Int :=
  if d.wholeMagnitude < Nat.pow 10 maxRoundedDigits then .ok d.nearestInt
  else .error .roundTooManyDigits

/-- The shortest decimal of a number rounded to the nearest integer, halves away from zero. -/
def roundHalfUp (x : Float) : Except NumberError Int :=
  match ExactValue.ofFloat x with
  | .notANumber => .error .roundNotANumber
  | .infinite _ => .error .roundTooManyDigits
  | .finite negative m e => (shortestDecimal negative m e).round?

/-- The greatest integer that is at most `mantissa * 2 ^ exponent` with its sign. -/
def floorInt (negative : Bool) (mantissa : Nat) (exponent : Int) : Int :=
  let whole : Int := mantissa * Nat.pow 2 exponent.toNat
  (if negative then -whole else whole) / Nat.pow 2 (-exponent).toNat

/-- The floor of a number, as an integer of any size. -/
def floorOf (x : Float) : Except NumberError Int :=
  match ExactValue.ofFloat x with
  | .notANumber => .error .floorNotANumber
  | .infinite _ => .error .floorInfinity
  | .finite negative m e => .ok (floorInt negative m e)

/-- The integer a number equals, if it equals one. -/
def wholeValue? (x : Float) : Option Int :=
  match ExactValue.ofFloat x with
  | .finite negative m e =>
    let n := floorInt negative m e
    let whole := (if negative then -1 else 1) * (m : Int) * Nat.pow 2 e.toNat
    if n * Nat.pow 2 (-e).toNat = whole then some n else none
  | _ => none

def ofInteger (n : Int) : Except NumberError Float :=
  let x := Float.ofInt n
  if (ExactValue.ofFloat x).isFinite then .ok x else .error .integerTooLarge

open Float.Model in
def unpackedOfInt (n : Int) : UnpackedFloat :=
  if h : 0 < n.natAbs then .finite (if n < 0 then .negative else .positive) n.natAbs 0 h
  else .zero .positive

/-- The binary number nearest to a quotient of integers. -/
def integerQuotient (a b : Int) : Except NumberError Float :=
  if b = 0 then .error .divisionByZero
  else
    let q := Float.ofModel (.pack
      (Float.Model.UnpackedFloat.div .binary64 (unpackedOfInt a) (unpackedOfInt b)))
    if (ExactValue.ofFloat q).isFinite then .ok q else .error .quotientTooLarge

/-- A character repeated, not at all for a negative count. -/
def repeated (c : Char) (count : Int) : Except NumberError Text :=
  if Nat.pow 2 63 ≤ count then .error .repetitionTooLong
  else .ok (String.ofList (List.replicate count.toNat c))

/-- The value, but at least `bound`. A value that does not compare gives the bound. -/
def atLeast (bound x : Float) : Float := if bound < x then x else bound

/-- The value, but at most `bound`. A value that does not compare gives the bound. -/
def atMost (bound x : Float) : Float := if x < bound then x else bound

end ThermalLabel
