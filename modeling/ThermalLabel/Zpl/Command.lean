import ThermalLabel.Number.Rounding
/-!
# Printer commands

The commands that a compiled label consists of, and how each is written. All arguments are whole
numbers of dots, letters or field data.
-/

namespace ThermalLabel.Zpl

/-- The direction in which a field is printed. -/
inductive Orientation where
  | normal
  | rotated
  | inverted
  | bottomUp
deriving DecidableEq, Repr

namespace Orientation

def letter : Orientation → String
  | normal => "N"
  | rotated => "R"
  | inverted => "I"
  | bottomUp => "B"

/-- The direction for a rotation in degrees clockwise. Other rotations print as if there was none. -/
def ofDegrees : Option Int → Orientation
  | some 90 => rotated
  | some 180 => inverted
  | some 270 => bottomUp
  | _ => normal

end Orientation

inductive Command where
  /-- Where the next field starts. -/
  | fieldOrigin (x y : Int)
  | box (width height border : Int)
  | font (orientation : Orientation) (height width : Int)
  | linearBarcode (orientation : Orientation) (height : Int) (interpretation : Bool)
  | squareBarcode (magnification : Int)
  /-- A bitmap: bytes in all and in a row, and the digits. -/
  | graphic (totalBytes bytesPerRow : Nat) (payload : Text)
  | fieldData (content : Text)
  | fieldEnd
deriving DecidableEq, Repr

def Command.written : Command → Text
  | fieldOrigin x y => "^FO" ++ toString x ++ "," ++ toString y
  | box w h b => "^GB" ++ toString w ++ "," ++ toString h ++ "," ++ toString b
  | font o h w => "^A0" ++ o.letter ++ "," ++ toString h ++ "," ++ toString w
  | linearBarcode o h i =>
    "^BC" ++ o.letter ++ "," ++ toString h ++ "," ++ (if i then "Y" else "N") ++ ",N,N"
  | squareBarcode m => "^BQN,2," ++ toString m
  | graphic total perRow payload =>
    "^GFA," ++ toString total ++ "," ++ toString total ++ "," ++ toString perRow ++ "," ++ payload
  | fieldData content => "^FD" ++ content
  | fieldEnd => "^FS"

/-- Commands one after the other on a line. -/
def writtenLine (commands : List Command) : Text :=
  Text.join (commands.map Command.written) ++ "\n"

end ThermalLabel.Zpl
