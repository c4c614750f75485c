import ThermalLabel.Text.Basic
/-!
# Quoted text in messages

A message that shows a value puts it between quotes: single ones, or double ones if the text holds
single quotes and no double ones. Backslashes, the quote in use, line ends, tabs and characters
without a visible form are escaped.
-/

namespace ThermalLabel

/-- Ranges of assigned characters beyond ASCII without a visible form: controls, format characters,
separators and private use. Unassigned characters are not in the table. -/
def invisibleRanges : List (Nat × Nat) :=
  [(0x7F, 0xA0), (0xAD, 0xAD), (0x600, 0x605), (0x61C, 0x61C), (0x6DD, 0x6DD), (0x70F, 0x70F),
    (0x890, 0x891), (0x8E2, 0x8E2), (0x1680, 0x1680), (0x180E, 0x180E), (0x2000, 0x200F),
    (0x2028, 0x202F), (0x205F, 0x206F), (0x3000, 0x3000), (0xE000, 0xF8FF), (0xFEFF, 0xFEFF),
    (0xFFF0, 0xFFFB), (0xFFFE, 0xFFFF), (0x110BD, 0x110BD), (0x110CD, 0x110CD), (0x13430, 0x1343F),
    (0x1BCA0, 0x1BCA3), (0x1D173, 0x1D17A), (0xE0000, 0xE00FF), (0xE01F0, 0x10FFFF)]

def isVisible (c : Char) : Bool :=
  0x20 ≤ c.toNat && !invisibleRanges.any fun r => r.1 ≤ c.toNat && c.toNat ≤ r.2

private def hexText (width n : Nat) : List Char :=
  let ds := Nat.toDigits 16 n
  List.replicate (width - ds.length) '0' ++ ds

def escapeChar (quote c : Char) : List Char :=
  if c = '\\' ∨ c = quote then ['\\', c]
  else if c = '\n' then ['\\', 'n']
  else if c = '\r' then ['\\', 'r']
  else if c = '\t' then ['\\', 't']
  else if isVisible c then [c]
  else if c.toNat < 0x100 then '\\' :: 'x' :: hexText 2 c.toNat
  else if c.toNat < 0x10000 then '\\' :: 'u' :: hexText 4 c.toNat
  else '\\' :: 'U' :: hexText 8 c.toNat

def escapePoint (quote : Char) : CodePoint → List Char
  | .char c => escapeChar quote c
  | .half h => '\\' :: 'u' :: hexText 4 h.code

def quoted (t : Text) : String :=
  let ps := t.points
  let quote := if ps.contains '\'' && !ps.contains '"' then '"' else '\''
  String.ofList (quote :: ps.flatMap (escapePoint quote) ++ [quote])

/-- Bytes between quotes, as the characters of the same numbers; those beyond ASCII are escaped. -/
def quotedBytes (bytes : List UInt8) : String :=
  let cs := bytes.map fun b => Char.ofNat b.toNat
  let quote := if cs.contains '\'' && !cs.contains '"' then '"' else '\''
  let escape := fun c : Char =>
    if 0x7F ≤ c.toNat then '\\' :: 'x' :: hexText 2 c.toNat else escapeChar quote c
  "b" ++ String.ofList (quote :: cs.flatMap escape ++ [quote])

/-- Names between quotes, separated by commas and a final `or`. -/
def alternatives : List String → String
  | [] => ""
  | [a] => "'" ++ a ++ "'"
  | [a, b] => "'" ++ a ++ "' or '" ++ b ++ "'"
  | a :: rest => "'" ++ a ++ "', " ++ alternatives rest

end ThermalLabel
