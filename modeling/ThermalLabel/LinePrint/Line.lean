import ThermalLabel.LinePrint.StableOrder
import ThermalLabel.Text.Basic
import ThermalLabel.Number.Rounding
/-!
# Lines of characters

Items with a height on the label and a character column are gathered into lines: from top to
bottom, each joins the nearest line that is close enough or opens a new one. A line is laid out from
left to right; an item whose column is already taken follows after one space.
-/

namespace ThermalLabel.LinePrint

/-- A text at a height on the label and a character column. -/
structure Item where
  y : Float
  column : Int
  content : Text
deriving DecidableEq

/-- Items on one line, in the order in which they joined. The line lies where its first item lies. -/
structure Line where
  y : Float
  items : List Item
deriving DecidableEq

/-- Items closer than this share a line: about the height of a line of text, in pixels. -/
def lineDistance : Float := 15.0

/-- How far an item lies from a line. -/
def Line.distance (line : Line) (item : Item) : Float := (line.y - item.y).abs

def Line.add (line : Line) (item : Item) : Line := { line with items := line.items ++ [item] }

/-- The place of the nearest line that is close enough, the first of several, counted from `i`. -/
def nearestFrom (item : Item) (i : Nat) (best : Option (Nat × Float)) : List Line → Option Nat
  | [] => best.map Prod.fst
  | line :: rest =>
    let d := line.distance item
    let better := d < lineDistance && match best with
      | none => true
      | some (_, least) => d < least
    nearestFrom item (i + 1) (if better then some (i, d) else best) rest

/-- An item added to the lines above it. -/
def addItem (lines : List Line) (item : Item) : List Line :=
  match nearestFrom item 0 none lines with
  | some i => lines.modify i fun line => line.add item
  | none => lines ++ [⟨item.y, [item]⟩]

/-- Items gathered into lines, from top to bottom. -/
def groupLines (items : List Item) : List Line :=
  (stableOrder (fun a b => decide (a.y < b.y)) items).foldl addItem []

def layOut (position : Int) : List Item → Except NumberError (List CodePoint)
  | [] => .ok []
  | item :: rest => do
    let gap : Int :=
      if position < item.column then item.column - position
      else if item.column < position then 1 else 0
    let blank ← repeated ' ' gap
    let after ← layOut (position + gap + item.content.length) rest
    return blank.points ++ item.content.points ++ after

/-- The text of a line, its items in order of their columns. -/
def Line.text (line : Line) : Except NumberError Text :=
  (layOut 0 (stableOrder (fun a b => decide (a.column < b.column)) line.items)).map Text.ofPoints

end ThermalLabel.LinePrint
