import ThermalLabel.Number.Decimal
import ThermalLabel.Text.Blank
/-!
# Numbers read from text

The accepted numerals are a sign, decimal digits, and for binary numbers a point and an exponent,
or one of the names of infinity and of what is not a number. Two dialects differ in white space,
in digits of other scripts and in where an underscore may stand.
-/

namespace ThermalLabel

/-- The value of decimal digits, most significant first. -/
def digitsValue (ds : List Char) : Nat :=
  ds.foldl (fun n c => 10 * n + (c.toNat - '0'.toNat)) 0

/-- A sign taken off the front; `true` for a minus. -/
def splitSign : List Char → Bool × List Char
  | '-' :: cs => (true, cs)
  | '+' :: cs => (false, cs)
  | cs => (false, cs)

/-- Digits with single underscores between them, without the underscores. -/
def joinDigitGroups? : List Char → Option (List Char)
  | [] => none
  | [c] => if c.isDigit then some [c] else none
  | c :: '_' :: cs => if c.isDigit then (joinDigitGroups? cs).map (c :: ·) else none
  | c :: cs => if c.isDigit then (joinDigitGroups? cs).map (c :: ·) else none

/-- A text whose underscores each stand between two digits, without them. -/
def dropInnerUnderscores? : List Char → Option (List Char)
  | [] => some []
  | '_' :: _ => none
  | c :: '_' :: d :: cs =>
    if c.isDigit && d.isDigit then (dropInnerUnderscores? (d :: cs)).map (c :: ·) else none
  | c :: cs => (dropInnerUnderscores? cs).map (c :: ·)

def notANumber : Float := 0.0 / 0.0

def infinity : Float := 1.0 / 0.0

/-- Positive decimals from this power of ten on are beyond every binary number. -/
def infinitePlace : Int := 310

/-- Positive decimals below this power of ten round to zero. -/
def vanishingPlace : Int := -330

/-- The magnitude `digits * 10 ^ exponent` as the nearest binary number. -/
def scientificMagnitude (digits : Nat) (exponent : Int) : Float :=
  let place := digitCount digits + exponent
  if digits = 0 ∨ place < vanishingPlace then 0.0
  else if infinitePlace < place then infinity
  else Float.ofScientific digits (exponent < 0) exponent.natAbs

/-- The signed decimal `digits * 10 ^ exponent` as the nearest binary number. -/
def scientific (negative : Bool) (digits : Nat) (exponent : Int) : Float :=
  let x := scientificMagnitude digits exponent
  if negative then -x else x

/-- The exponent of a numeral: nothing, or `e` with a sign and digits. -/
def exponentPart? : List Char → Option Int
  | [] => some 0
  | c :: cs =>
    if c = 'e' ∨ c = 'E' then
      let (negative, ds) := splitSign cs
      if ds ≠ [] ∧ ds.all Char.isDigit then
        some (if negative then -(digitsValue ds : Int) else digitsValue ds)
      else none
    else none

/-- An unsigned decimal numeral: digits with an optional point on either side and an exponent. -/
def unsignedDecimal? (negative : Bool) (cs : List Char) : Option Float :=
  let whole := cs.takeWhile Char.isDigit
  let rest := cs.dropWhile Char.isDigit
  let (fraction, rest) := match rest with
    | '.' :: r => (r.takeWhile Char.isDigit, r.dropWhile Char.isDigit)
    | r => ([], r)
  if whole = [] ∧ fraction = [] then none
  else (exponentPart? rest).map fun e =>
    scientific negative (digitsValue (whole ++ fraction)) (e - fraction.length)

/-- A signed decimal numeral, `inf`, `infinity` or `nan` in any case. -/
def binaryNumeral? (cs : List Char) : Option Float :=
  let (negative, body) := splitSign cs
  let name := String.ofList (body.map Char.toLower)
  if name = "inf" ∨ name = "infinity" then some (if negative then -infinity else infinity)
  else if name = "nan" then some notANumber
  else unsignedDecimal? negative body

def hasDoubleUnderscore : List Char → Bool
  | '_' :: '_' :: _ => true
  | _ :: cs => hasDoubleUnderscore cs
  | [] => false

/-- A binary number as a field of a document accepts it: trimmed, and with underscores anywhere but
at the ends or next to each other. -/
def fieldBinary? (s : String) : Option Float :=
  let cs := trimBy isBlank s.toList
  if cs.contains '_' then
    if cs.head? = some '_' ∨ cs.getLast? = some '_' ∨ hasDoubleUnderscore cs then none
    else binaryNumeral? (cs.filter (· ≠ '_'))
  else binaryNumeral? cs

/-- An integer as a field of a document accepts it: trimmed, with grouped digits, and perhaps a
point with zeros behind it. -/
def fieldInteger? (s : String) : Option Int :=
  let (negative, body) := splitSign (trimBy isBlank s.toList)
  let whole := body.takeWhile (· ≠ '.')
  let fraction := body.dropWhile (· ≠ '.')
  let plain := match fraction with
    | [] => true
    | _ :: zeros => zeros ≠ [] ∧ zeros.all (· = '0')
  if plain then
    (joinDigitGroups? whole).map fun ds =>
      if negative then -(digitsValue ds : Int) else digitsValue ds
  else none

/-- Digits of every script as the ASCII digit of the same value. -/
def plainDigits (cs : List Char) : List Char :=
  cs.map fun c => match scriptDigit? c with
    | some d => Char.ofNat ('0'.toNat + d)
    | none => c

/-- An integer as a setting accepts it: trimmed, with grouped digits of any script. -/
def settingInteger? (s : String) : Option Int :=
  let (negative, body) := splitSign (plainDigits (trimBy isSeparator s.toList))
  (joinDigitGroups? body).map fun ds =>
    if negative then -(digitsValue ds : Int) else digitsValue ds

/-- A binary number as a setting accepts it: trimmed, underscores only between digits. -/
def settingBinary? (s : String) : Option Float :=
  (dropInnerUnderscores? (plainDigits (trimBy isSeparator s.toList))).bind binaryNumeral?

end ThermalLabel
