/-!
# Signed decimals

A decimal is a sign, a natural coefficient and a power of ten. Rounding one to a whole number
takes halves away from zero, so it treats both signs alike.
-/

namespace ThermalLabel

/-- A signed decimal, `digits * 10 ^ exponent`. -/
structure Decimal where
  negative : Bool
  digits : Nat
  exponent : Int
deriving DecidableEq, Repr

/-- How many decimal digits a natural number is written with. -/
def digitCount (n : Nat) : Nat :=
  if n < 10 then 1 else digitCount (n / 10) + 1
termination_by n
decreasing_by omega

/-- Zeros at the end of a coefficient moved into the exponent. -/
def shiftZeros (n : Nat) (e : Int) : Nat × Int :=
  if n ≠ 0 ∧ n % 10 = 0 then shiftZeros (n / 10) (e + 1) else (n, e)
termination_by n
decreasing_by omega

namespace Decimal

/-- The magnitude rounded to a whole number, a half upwards. -/
def wholeMagnitude (d : Decimal) : Nat :=
  let unit := Nat.pow 10 (-d.exponent).toNat
  (2 * (d.digits * Nat.pow 10 d.exponent.toNat) + unit) / (2 * unit)

/-- The nearest integer, halves away from zero. -/
def nearestInt (d : Decimal) : Int :=
  if d.negative then -(d.wholeMagnitude : Int) else d.wholeMagnitude

/-- The same value without zeros at the end of its coefficient. -/
def trimmed (d : Decimal) : Decimal :=
  let (n, e) := shiftZeros d.digits d.exponent
  { d with digits := n, exponent := e }

end Decimal
end ThermalLabel
