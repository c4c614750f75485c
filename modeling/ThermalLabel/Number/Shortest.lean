import ThermalLabel.Number.Exact
import ThermalLabel.Number.Decimal
/-!
# The shortest decimal of a binary number

Among the decimals that read back as a given binary64 number, the one with the fewest digits
stands for it, and of several the nearest. The search walks the decimal grids from coarse to
fine; on each grid only the two neighbours of the value can be nearest. All comparisons are
between whole numbers.
-/

namespace ThermalLabel

/-- The least `k` with `mantissa * 2 ^ exponent < 10 ^ k`, for a positive mantissa. -/
def leadingPlace (mantissa : Nat) (exponent : Int) : Int :=
  let v := binaryFraction mantissa exponent 0
  if v.den ≤ v.num then digitCount (v.num / v.den)
  else 1 - (digitCount ((v.den - 1) / v.num) : Int)

/-- `a * 10 ^ place ≤ n * 2 ^ exponent`, by cross-multiplication. -/
def decimalLE (a : Nat) (place : Int) (n : Nat) (exponent : Int) : Bool :=
  a * Nat.pow 10 place.toNat * Nat.pow 2 (-exponent).toNat ≤
    n * Nat.pow 2 exponent.toNat * Nat.pow 10 (-place).toNat

/-- `n * 2 ^ exponent ≤ a * 10 ^ place`, by cross-multiplication. -/
def binaryLE (n : Nat) (exponent : Int) (a : Nat) (place : Int) : Bool :=
  n * Nat.pow 2 exponent.toNat * Nat.pow 10 (-place).toNat ≤
    a * Nat.pow 10 place.toNat * Nat.pow 2 (-exponent).toNat

/-- The lower end of the reals that round to a value, in quarters of its last place. Just above
a power of two the neighbour below is only half as far away. -/
def lowerQuarters (mantissa : Nat) (exponent : Int) : Nat :=
  if mantissa = Nat.pow 2 52 ∧ -1074 < exponent then 4 * mantissa - 1 else 4 * mantissa - 2

/-- Whether `a * 10 ^ place` rounds to `mantissa * 2 ^ exponent`. The two ends, halfway to the
neighbours, belong to the value exactly when its mantissa is even. -/
def readsBack (mantissa : Nat) (exponent : Int) (a : Nat) (place : Int) : Bool :=
  let lower := lowerQuarters mantissa exponent
  let upper := 4 * mantissa + 2
  if mantissa % 2 = 0 then
    binaryLE lower (exponent - 2) a place && decimalLE a place upper (exponent - 2)
  else
    !decimalLE a place lower (exponent - 2) && !binaryLE upper (exponent - 2) a place

/-- The nearest multiple of `10 ^ place` that reads back, if one does; a tie goes to the even one. -/
def nearestOnGrid? (mantissa : Nat) (exponent place : Int) : Option Nat :=
  let v := binaryFraction mantissa exponent place
  let below := v.num / v.den
  match readsBack mantissa exponent below place, readsBack mantissa exponent (below + 1) place with
  | false, false => none
  | true, false => some below
  | false, true => some (below + 1)
  | true, true => some (nearestEven v.num v.den)

/-- The value itself, written out in full. -/
def fullDecimal (mantissa : Nat) (exponent : Int) : Nat × Int :=
  if 0 ≤ exponent then (mantissa * Nat.pow 2 exponent.toNat, 0)
  else (mantissa * Nat.pow 5 (-exponent).toNat, exponent)

/-- Coefficient and power of ten of the shortest decimal of a positive value. -/
def shortestDigits (mantissa : Nat) (exponent : Int) : Nat × Int :=
  let top := leadingPlace mantissa exponent - 1
  match (List.range 17).findSome? fun (n : Nat) =>
      (nearestOnGrid? mantissa exponent (top - n)).map fun a => (a, top - n) with
  | some found => found
  | none => fullDecimal mantissa exponent

/-- The shortest decimal of a finite reading; zero is the coefficient zero. -/
def shortestDecimal (negative : Bool) (mantissa : Nat) (exponent : Int) : Decimal :=
  if mantissa = 0 then ⟨negative, 0, 0⟩
  else
    let (digits, place) := shortestDigits mantissa exponent
    ⟨negative, digits, place⟩

end ThermalLabel
