import ThermalLabel.Text.Basic
/-!
# Labels

A label has three sections, each a height with the elements placed in it, and a print width.
Positions and sizes of elements are editor pixels, heights and widths of the label millimetres.
-/

namespace ThermalLabel

inductive ElementKind where
  | text
  | box
  | barcode
  | image
deriving DecidableEq, Repr

inductive BarcodeKind where
  | code128
  | qr
deriving DecidableEq, Repr

inductive SectionName where
  | header
  | body
  | footer
deriving DecidableEq, Repr

/-- A monochrome bitmap as hexadecimal digits, its rows padded to whole bytes. -/
structure Bitmap where
  payload : Text
  totalBytes : Nat
  bytesPerRow : Nat
deriving DecidableEq

@[ext]
structure Element where
  id : Text
  kind : ElementKind
  x : Float
  y : Float
  width : Option Float
  height : Option Float
  /-- Literal content. -/
  content : Option Text
  /-- The content comes from the data source. -/
  isDynamic : Bool
  dataSource : Option Text
  /-- A named picture of the printer. -/
  imageKey : Option Text
  /-- In points. -/
  fontSize : Option Float
  fontBold : Option Bool
  /-- Degrees clockwise. -/
  rotation : Option Int
  maxChars : Option Nat
  barcodeKind : Option BarcodeKind
  showLabel : Option Bool
  bitmap : Option Bitmap
  /-- A picture that a browser shows, as a data URL. -/
  imageData : Option Text
deriving DecidableEq

/-- Part of a label: its height and its elements from first to last. -/
structure LabelSection where
  height : Float
  elements : List Element
deriving DecidableEq

structure Label where
  header : LabelSection
  body : LabelSection
  footer : LabelSection
  canvasWidth : Float
deriving DecidableEq

/-- A text that is there and not empty. -/
def nonempty? : Option Text → Option Text
  | some s => if s = "" then none else some s
  | none => none

/-- A size that is there and not zero. -/
def nonzero? : Option Float → Option Float
  | some x => if x == 0.0 then none else some x
  | none => none

namespace ElementKind

def names : List (String × ElementKind) :=
  [("text", text), ("box", box), ("barcode", barcode), ("image", image)]

def name : ElementKind → String
  | text => "text"
  | box => "box"
  | barcode => "barcode"
  | image => "image"

@[simp] theorem lookup_name (k : ElementKind) : names.lookup k.name = some k := by
  cases k <;> decide

end ElementKind

namespace BarcodeKind

def names : List (String × BarcodeKind) := [("code128", code128), ("qr", qr)]

def name : BarcodeKind → String
  | code128 => "code128"
  | qr => "qr"

@[simp] theorem lookup_name (k : BarcodeKind) : names.lookup k.name = some k := by
  cases k <;> decide

end BarcodeKind

namespace SectionName

/-- The sections from top to bottom. -/
def all : List SectionName := [header, body, footer]

def names : List (String × SectionName) := [("header", header), ("body", body), ("footer", footer)]

def name : SectionName → String
  | header => "header"
  | body => "body"
  | footer => "footer"

@[simp] theorem lookup_name (s : SectionName) : names.lookup s.name = some s := by
  cases s <;> decide

end SectionName

namespace Element

/-- An element takes its picture from one place: not both a named picture and a bitmap. -/
def hasTwoImageSources (e : Element) : Bool :=
  (nonempty? e.imageKey).isSome && e.bitmap.isSome

end Element

namespace Label

def blank : Label := ⟨⟨40.0, []⟩, ⟨10.0, []⟩, ⟨20.0, []⟩, 104.0⟩

def part (label : Label) : SectionName → LabelSection
  | .header => label.header
  | .body => label.body
  | .footer => label.footer

def setPart (label : Label) (name : SectionName) (s : LabelSection) : Label :=
  match name with
  | .header => { label with header := s }
  | .body => { label with body := s }
  | .footer => { label with footer := s }

@[simp] theorem part_setPart (label : Label) (n m : SectionName) (s : LabelSection) :
    (label.setPart n s).part m = if m = n then s else label.part m := by
  cases n <;> cases m <;> rfl

@[simp] theorem setPart_part (label : Label) (n : SectionName) :
    label.setPart n (label.part n) = label := by
  cases n <;> rfl

@[simp] theorem canvasWidth_setPart (label : Label) (n : SectionName) (s : LabelSection) :
    (label.setPart n s).canvasWidth = label.canvasWidth := by
  cases n <;> rfl

/-- All elements, section by section from top to bottom. -/
def elements (label : Label) : List Element :=
  label.header.elements ++ label.body.elements ++ label.footer.elements

end Label
end ThermalLabel
