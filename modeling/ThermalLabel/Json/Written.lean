import ThermalLabel.Json.Basic
import ThermalLabel.Number.Written
import ThermalLabel.Text.Quoted
/-!
# JSON as text

Documents are written without blanks. Binary numbers have their shortest digits; negative zero
loses its sign, and what has no numeral is written as a name between quotes.
-/

namespace ThermalLabel.Json

private def fourHex (n : Nat) : List Char :=
  let ds := Nat.toDigits 16 n
  List.replicate (4 - ds.length) '0' ++ ds

private def escapeMember (c : Char) : List Char :=
  match c with
  | '"' => ['\\', '"']
  | '\\' => ['\\', '\\']
  | '\n' => ['\\', 'n']
  | '\r' => ['\\', 'r']
  | '\t' => ['\\', 't']
  | c => if c.toNat < 0x20 || c.toNat = 0x7F then '\\' :: 'u' :: fourHex c.toNat else [c]

private def escapePoint : CodePoint → List Char
  | .char c => escapeMember c
  | .half h => '\\' :: 'u' :: fourHex h.code

def writtenString (t : Text) : String :=
  "\"" ++ String.ofList (t.points.flatMap escapePoint) ++ "\""

def writtenFloat (x : Float) : String :=
  if !x.isFinite then "\"" ++ shortestText x ++ "\""
  else if x == 0.0 then "0.0"
  else shortestText x

mutual

def written : Json → String
  | null => "null"
  | bool true => "true"
  | bool false => "false"
  | num (.int n) => toString n
  | num (.float x) => writtenFloat x
  | str s => writtenString s
  | bytes data => writtenString (quotedBytes data.data.toList)
  | arr items => "[" ++ writtenItems items ++ "]"
  | obj members => "\x7b" ++ writtenMembers members ++ "\x7d"

def writtenItems : List Json → String
  | [] => ""
  | [v] => written v
  | v :: rest => written v ++ "," ++ writtenItems rest

def writtenMembers : List (String × Json) → String
  | [] => ""
  | [(k, v)] => writtenString k ++ ":" ++ written v
  | (k, v) :: rest => writtenString k ++ ":" ++ written v ++ "," ++ writtenMembers rest

end

end ThermalLabel.Json

namespace ThermalLabel

/-- Texts are shown outside with what cannot be written replaced. -/
instance : Coe Text String := ⟨Text.shown⟩

end ThermalLabel
