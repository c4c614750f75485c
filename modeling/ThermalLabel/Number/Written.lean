import ThermalLabel.Number.Shortest
/-!
# Numbers as text

Three written forms of a binary64 number: the shortest decimal that reads back, six significant
digits, and a fixed number of places. They share one layout of a decimal, positional for moderate
exponents and with a signed exponent of at least two digits otherwise.
-/

namespace ThermalLabel

/-- The layout decisions of a written number. -/
structure NumeralStyle where
  /-- Leading exponents from -4 up to this bound are written positionally. -/
  plainBelow : Int
  /-- A whole number keeps a point and a zero, as in `12.0`. -/
  keepsPoint : Bool

namespace NumeralStyle

/-- Shortest digits: positional below `10 ^ 16`, whole numbers as `12.0`. -/
def shortest : NumeralStyle := ⟨16, true⟩

/-- Six significant digits: positional below `10 ^ 6`, whole numbers as `12`. -/
def general : NumeralStyle := ⟨6, false⟩

end NumeralStyle

/-- As many zeros as a number says, none if it is negative. -/
def zeros (n : Int) : String := String.ofList (List.replicate n.toNat '0')

/-- An exponent with its sign and at least two digits. -/
def exponentText (e : Int) : String :=
  let digits := toString e.natAbs
  (if e < 0 then "e-" else "e+") ++ (if e.natAbs < 10 then "0" ++ digits else digits)

namespace Decimal

def magnitudeText (style : NumeralStyle) (d : Decimal) : String :=
  if d.digits = 0 then
    if style.keepsPoint then "0.0" else "0"
  else
    let t := d.trimmed
    let digits := (toString t.digits).toList
    let point : Int := digits.length + t.exponent
    if -4 ≤ point - 1 ∧ point - 1 < style.plainBelow then
      if point ≤ 0 then
        "0." ++ zeros (-point) ++ String.ofList digits
      else if digits.length ≤ point then
        String.ofList digits ++ zeros (point - digits.length) ++
          (if style.keepsPoint then ".0" else "")
      else
        String.ofList (digits.take point.toNat) ++ "." ++ String.ofList (digits.drop point.toNat)
    else
      String.ofList (digits.take 1) ++
        (if digits.length = 1 then "" else "." ++ String.ofList (digits.drop 1)) ++
        exponentText (point - 1)

def text (style : NumeralStyle) (d : Decimal) : String :=
  (if d.negative then "-" else "") ++ d.magnitudeText style

end Decimal

private def infinityText (negative : Bool) : String :=
  if negative then "-inf" else "inf"

/-- The shortest text that reads back as the number; negative zero keeps its sign. -/
def shortestText (x : Float) : String :=
  match ExactValue.ofFloat x with
  | .notANumber => "nan"
  | .infinite negative => infinityText negative
  | .finite negative m e => (shortestDecimal negative m e).text .shortest

/-- Six significant digits of the exact value, a tie to the even digit, without zeros at the end. -/
def generalText (x : Float) : String :=
  match ExactValue.ofFloat x with
  | .notANumber => "nan"
  | .infinite negative => infinityText negative
  | .finite negative m e =>
    if m = 0 then (⟨negative, 0, 0⟩ : Decimal).text .general
    else
      let place := leadingPlace m e - 6
      let v := binaryFraction m e place
      (⟨negative, nearestEven v.num v.den, place⟩ : Decimal).text .general

/-- Two places of the exact value, a tie to the even digit. -/
def twoPlacesText (x : Float) : String :=
  match ExactValue.ofFloat x with
  | .notANumber => "nan"
  | .infinite negative => infinityText negative
  | .finite negative m e =>
    let v := binaryFraction m e (-2)
    let hundredths := nearestEven v.num v.den
    let places := toString (hundredths % 100)
    (if negative then "-" else "") ++ toString (hundredths / 100) ++ "." ++
      (if hundredths % 100 < 10 then "0" ++ places else places)

end ThermalLabel
