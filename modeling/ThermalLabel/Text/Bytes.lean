/-!
# Bytes as text

Hexadecimal digits, two to a byte, and the 64-character alphabet, four characters to three bytes,
behind the heading of a data URL.
-/

namespace ThermalLabel

/-- The digits of one byte, high half first. -/
def hexByte (upper : Bool) (n : Nat) : List Char :=
  let digit := fun d : Nat =>
    if d < 10 then Char.ofNat ('0'.toNat + d)
    else Char.ofNat ((if upper then 'A' else 'a').toNat + (d - 10))
  [digit (n / 16 % 16), digit (n % 16)]

def upperHex (bytes : List Nat) : String :=
  String.ofList (bytes.flatMap (hexByte true))

def sextetChar (n : Nat) : Char :=
  if n < 26 then Char.ofNat ('A'.toNat + n)
  else if n < 52 then Char.ofNat ('a'.toNat + (n - 26))
  else if n < 62 then Char.ofNat ('0'.toNat + (n - 52))
  else if n = 62 then '+' else '/'

/-- Three bytes to four characters; a short last group is filled with equals signs. -/
def base64Chars : List Nat → List Char
  | [] => []
  | [a] => [sextetChar (a / 4), sextetChar (a % 4 * 16), '=', '=']
  | [a, b] =>
    [sextetChar (a / 4), sextetChar (a % 4 * 16 + b / 16), sextetChar (b % 16 * 4), '=']
  | a :: b :: c :: rest =>
    sextetChar (a / 4) :: sextetChar (a % 4 * 16 + b / 16) ::
      sextetChar (b % 16 * 4 + c / 64) :: sextetChar (c % 64) :: base64Chars rest

/-- Bytes as an address that a browser shows directly. -/
def dataUrl (bytes : List Nat) (mediaType : String) : String :=
  "data:" ++ mediaType ++ ";base64," ++ String.ofList (base64Chars bytes)

end ThermalLabel
