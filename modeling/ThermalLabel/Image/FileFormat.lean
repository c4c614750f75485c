import ThermalLabel.Image.Picture
import ThermalLabel.Text.Numeral
import ThermalLabel.Text.Quoted
/-!
# Image files

The bytes of a file are recognised by their first few. Plain bitmaps, grey maps and pixel maps are
read in full; of a compressed picture only the header is looked at here. A header that declares too
many pixels is refused before anything else is read.
-/

namespace ThermalLabel.Image

/-- What is wrong with the header of a file whose format was recognised. -/
inductive HeaderError where
  /-- The brightest level is not a positive number of sixteen bits. -/
  | levels
  | unreadable (token : List UInt8)
  | incomplete
  | tokenTooLong (token : List UInt8)
deriving DecidableEq, Repr

def HeaderError.message : HeaderError → String
  | .levels => "maxval must be greater than 0 and less than 65536"
  | .unreadable token => "invalid literal for int() with base 10: " ++ quotedBytes token
  | .incomplete => "Reached EOF while reading header"
  | .tokenTooLong token =>
    quotedBytes ("Token too long in file header: ".toUTF8.data.toList ++ token)

inductive DecodeError where
  | unidentified
  /-- A header without pixels. -/
  | noPixels
  /-- Fewer pixels than declared, with so many bytes left behind the last complete row. -/
  | truncated (unread : Nat)
  | tooManyPixels (count : Nat)
  | header (cause : HeaderError)
deriving DecidableEq, Repr

/-- Pictures of more pixels than this are not read. -/
def maxPixels : Nat := 178956970

def DecodeError.message : DecodeError → String
  | .unidentified => "cannot identify image file <_io.BytesIO object at 0x?>"
  | .noPixels => "cannot load this image"
  | .truncated unread =>
    "image file is truncated (" ++ toString unread ++ " bytes not processed)"
  | .tooManyPixels count =>
    "Image size (" ++ toString count ++ " pixels) exceeds limit of " ++ toString maxPixels ++
      " pixels, could be decompression bomb DOS attack."
  | .header cause => cause.message

inductive ImageFile where
  /-- A file whose picture a decoder of its format has already delivered. -/
  | decoded (picture : Picture)
  | bytes (data : ByteArray)

/-- The number of bytes that are still to be decoded. -/
def ImageFile.size : ImageFile → Nat
  | decoded _ => 0
  | bytes data => data.size

/-- Declared sides of a picture that may be read. -/
def checkSides (width height : Int) : Except DecodeError (Nat × Nat) :=
  if width ≤ 0 ∨ height ≤ 0 then .error .unidentified
  else
    let count := width.toNat * height.toNat
    if maxPixels < count then .error (.tooManyPixels count) else .ok (width.toNat, height.toNat)

def compressedSignature : List UInt8 := [137, 80, 78, 71, 13, 10, 26, 10]

/-- The number that four bytes spell, highest first. -/
def bigEndian (bytes : List UInt8) : Nat := bytes.foldl (fun n b => 256 * n + b.toNat) 0

/-- A compressed picture that consists of its header and an end mark. The sides stand behind the
heading of the header, the name of the end mark behind the length that follows the header. -/
def decodeCompressed (start : List UInt8) : Except DecodeError Picture := do
  if (start.drop 37).take 4 ≠ "IEND".toUTF8.data.toList then
    throw .unidentified
  let _ ← checkSides (bigEndian ((start.drop 16).take 4)) (bigEndian ((start.drop 20).take 4))
  throw .noPixels

inductive PlainKind where
  /-- One bit to a pixel, set for black. -/
  | bitmap
  | greyMap
  | pixelMap
deriving DecidableEq, Repr

namespace PlainKind

def ofDigit? (c : UInt8) : Option PlainKind :=
  if c = '4'.toUInt8 then some bitmap
  else if c = '5'.toUInt8 then some greyMap
  else if c = '6'.toUInt8 then some pixelMap
  else none

def format : PlainKind → PixelFormat
  | bitmap => .blackWhite
  | greyMap => .grey
  | pixelMap => .rgb

/-- Bytes to a row of so many pixels. -/
def rowBytes (kind : PlainKind) (width : Nat) : Nat :=
  match kind with
  | bitmap => (width + 7) / 8
  | greyMap => width
  | pixelMap => 3 * width

/-- The sample of a pixel, given the bytes of all rows. -/
def sample (kind : PlainKind) (data : Array UInt8) (width x y : Nat) : Sample :=
  let start := y * kind.rowBytes width
  let byte := fun i => (data.getD (start + i) 0).toNat
  match kind with
  | bitmap => ⟨if (byte (x / 8)).testBit (7 - x % 8) then 0 else 1, 0, 0, 0⟩
  | greyMap => ⟨byte x, 0, 0, 0⟩
  | pixelMap => ⟨byte (3 * x), byte (3 * x + 1), byte (3 * x + 2), 0⟩

end PlainKind

def isHeaderBlank (c : UInt8) : Bool := c = 32 || (9 ≤ c && c ≤ 13)

/-- Tokens of a header have at most this many characters. -/
def maxTokenLength : Nat := 10

/-- The next token of a header and what follows the blank behind it. Comments run from a number
sign to the end of the line and are left out, even within a token. -/
def headerToken (inComment : Bool) (token : List UInt8) :
    List UInt8 → Except HeaderError (List UInt8 × List UInt8)
  | [] => if token = [] then .error .incomplete else .ok (token, [])
  | c :: rest =>
    if inComment then headerToken (c ≠ 10 && c ≠ 13) token rest
    else if isHeaderBlank c then
      if token = [] then headerToken false [] rest else .ok (token, rest)
    else if c = '#'.toUInt8 then headerToken true token rest
    else if token.length = maxTokenLength then .error (.tokenTooLong (token ++ [c]))
    else headerToken false (token ++ [c]) rest

def headerNumber (bytes : List UInt8) : Except HeaderError (Int × List UInt8) := do
  let (token, rest) ← headerToken false [] bytes
  let (negative, body) := splitSign (token.map fun b => Char.ofNat b.toNat)
  match joinDigitGroups? body with
  | some ds => return (if negative then -(digitsValue ds : Int) else digitsValue ds, rest)
  | none => throw (.unreadable token)

/-- The sides that the header of an uncompressed file declares, and what follows the header. Only
bitmaps have no number of levels. -/
def plainHeader (kind : PlainKind) (bytes : List UInt8) :
    Except HeaderError (Int × Int × List UInt8) := do
  let (width, rest) ← headerNumber bytes
  let (height, rest) ← headerNumber rest
  if kind = .bitmap then
    return (width, height, rest)
  let (levels, rest) ← headerNumber rest
  if 0 < levels ∧ levels < 65536 then
    return (width, height, rest)
  throw .levels

/-- An uncompressed file, given what follows its mark. -/
def decodePlain (kind : PlainKind) (bytes : List UInt8) : Except DecodeError Picture := do
  let (width, height, rest) ← (plainHeader kind bytes).mapError .header
  let (width, height) ← checkSides width height
  let row := kind.rowBytes width
  let data := rest.toArray
  if data.size < row * height then
    throw (.truncated (data.size % row))
  return {
    format := kind.format
    samples := .tabulate width height (kind.sample data width)
    palette := #[]
    transparency := .none
    orientation := 1 }

def ImageFile.decode : ImageFile → Except DecodeError Picture
  | decoded picture => .ok picture
  | bytes data =>
    let start := (data.extract 0 41).data.toList
    if compressedSignature.isPrefixOf start then decodeCompressed start
    else match start with
      | 80 :: digit :: more =>
        match PlainKind.ofDigit? digit with
        | some kind =>
          if more.head?.all isHeaderBlank then decodePlain kind (data.data.toList.drop 3)
          else .error .unidentified
        | none => .error .unidentified
      | _ => .error .unidentified

end ThermalLabel.Image
