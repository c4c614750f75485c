import ThermalLabel.Text.Quoted
/-!
# Encoding of texts

Texts leave the program as UTF-8, which encodes characters and nothing else. A text with half of a
surrogate pair has no encoding; the refusal says where its first halves are.
-/

namespace ThermalLabel

/-- The first halves of a text that has any, which follow one another. -/
structure EncodingError where
  /-- Code points before them. -/
  position : Nat
  first : Half
  /-- How many follow the first one. -/
  more : Nat
deriving DecidableEq, Repr

def EncodingError.message (e : EncodingError) : String :=
  "'utf-8' codec can't encode character" ++
    (if e.more = 0 then
      " " ++ quoted (.broken "" e.first "") ++ " in position " ++ toString e.position
    else "s in position " ++ toString e.position ++ "-" ++ toString (e.position + e.more)) ++
    ": surrogates not allowed"

namespace Text

/-- How many halves a text begins with. -/
def leadingHalves : Text → Nat
  | plain _ => 0
  | broken before _ after => if before = "" then after.leadingHalves + 1 else 0

def encode : Text → Except EncodingError ByteArray
  | plain s => .ok s.toUTF8
  | broken before half after => .error ⟨before.length, half, after.leadingHalves⟩

end Text
end ThermalLabel
