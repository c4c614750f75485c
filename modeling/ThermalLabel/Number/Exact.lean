/-!
# Exact values of binary numbers

A binary64 number denotes a signed multiple of a power of two, an infinity or nothing at all.
Everything that rounds or prints such a number starts from this reading, in whole numbers.
-/

namespace ThermalLabel

/-- What a binary64 number denotes. A finite value is `mantissa * 2 ^ exponent` with its sign. -/
inductive ExactValue where
  | notANumber
  | infinite (negative : Bool)
  | finite (negative : Bool) (mantissa : Nat) (exponent : Int)
deriving DecidableEq, Repr

namespace ExactValue

private def isNegative : Float.Model.UnpackedFloat.Sign → Bool
  | .negative => true
  | .positive => false

/-- The exact reading of a number. Both zeros have mantissa zero and keep their sign. -/
def ofFloat (x : Float) : ExactValue :=
  match x.toModel.unpack with
  | .notANumber => .notANumber
  | .infinity s => .infinite (isNegative s)
  | .zero s => .finite (isNegative s) 0 0
  | .finite s m e _ => .finite (isNegative s) m e

def isFinite : ExactValue → Bool
  | .finite .. => true
  | _ => false

end ExactValue

/-- The quotient rounded to a whole number; a half goes to the even neighbour. -/
def nearestEven (num den : Nat) : Nat :=
  let q := num / den
  match compare (2 * (num % den)) den with
  | .lt => q
  | .gt => q + 1
  | .eq => if q % 2 = 0 then q else q + 1

/-- A positive binary value as a fraction of whole numbers. -/
structure BinaryFraction where
  num : Nat
  den : Nat

/-- The fraction `mantissa * 2 ^ exponent`, scaled by `10 ^ (-place)`. -/
def binaryFraction (mantissa : Nat) (exponent place : Int) : BinaryFraction where
  num := mantissa * Nat.pow 2 exponent.toNat * Nat.pow 10 (-place).toNat
  den := Nat.pow 2 (-exponent).toNat * Nat.pow 10 place.toNat

theorem binaryFraction_den_pos (mantissa : Nat) (exponent place : Int) :
    0 < (binaryFraction mantissa exponent place).den :=
  Nat.mul_pos (Nat.pow_pos (by decide)) (Nat.pow_pos (by decide))

end ThermalLabel
