import ThermalLabel.Image.Raster
/-!
# Pictures

A decoded picture keeps the samples of its file: grey levels, colours or entries of a palette,
perhaps with an opacity, and the orientation in which the camera was held.
-/

namespace ThermalLabel.Image

/-- How the samples of a picture are to be read. -/
inductive PixelFormat where
  /-- One bit, set for white. -/
  | blackWhite
  | grey
  | greyAlpha
  | rgb
  | rgba
  /-- An entry of the palette. -/
  | indexed
  /-- Sixteen bits; beyond eight bits everything is white. -/
  | grey16
deriving DecidableEq, Repr

/-- Which pixels of a picture without an opacity of their own are transparent. -/
inductive Transparency where
  | none
  /-- One grey level or one entry of the palette. -/
  | level (n : Nat)
  /-- The opacity of each entry of the palette; entries beyond are opaque. -/
  | entries (alphas : List Nat)
  | colour (c : Rgb)
deriving DecidableEq, Repr

/-- The samples of one pixel. How many of them count depends on the format. -/
structure Sample where
  first : Nat
  second : Nat
  third : Nat
  fourth : Nat
deriving DecidableEq, Repr, Inhabited

structure Picture where
  format : PixelFormat
  samples : Raster Sample
  palette : Array Rgb
  transparency : Transparency
  /-- The orientation tag of the file. -/
  orientation : Nat

namespace Picture

/-- An entry of the palette; a missing one is the grey of its number. -/
def paletteEntry (p : Picture) (n : Nat) : Rgb := p.palette.getD n ⟨n, n, n⟩

def colourOf (p : Picture) (s : Sample) : Rgb :=
  match p.format with
  | .blackWhite => if s.first = 0 then ⟨0, 0, 0⟩ else Rgb.white
  | .grey | .greyAlpha => ⟨s.first, s.first, s.first⟩
  | .grey16 => let g := min 255 s.first; ⟨g, g, g⟩
  | .rgb | .rgba => ⟨s.first, s.second, s.third⟩
  | .indexed => p.paletteEntry s.first

def alphaOf (p : Picture) (s : Sample) : Nat :=
  match p.format, p.transparency with
  | .greyAlpha, _ => s.second
  | .rgba, _ => s.fourth
  | .indexed, .entries alphas => alphas.getD s.first 255
  | .indexed, .level n | .grey, .level n => if s.first = n then 0 else 255
  | .rgb, .colour c => if c = ⟨s.first, s.second, s.third⟩ then 0 else 255
  | _, _ => 255

/-- The colours of a picture without any opacity. -/
def toRgb (p : Picture) : Raster Rgb := p.samples.map p.colourOf

/-- The colours of a picture with their opacity. -/
def toRgba (p : Picture) : Raster Rgba :=
  p.samples.map fun s =>
    let c := p.colourOf s
    ⟨c.red, c.green, c.blue, p.alphaOf s⟩

end Picture

/-- A raster turned and mirrored as an orientation tag asks. Unknown tags leave it as it is. -/
def upright {α : Type} [Inhabited α] (tag : Nat) (r : Raster α) : Raster α :=
  let w := r.width
  let h := r.height
  match tag with
  | 2 => .tabulate w h fun x y => r.pixel (w - 1 - x) y
  | 3 => .tabulate w h fun x y => r.pixel (w - 1 - x) (h - 1 - y)
  | 4 => .tabulate w h fun x y => r.pixel x (h - 1 - y)
  | 5 => .tabulate h w fun x y => r.pixel y x
  | 6 => .tabulate h w fun x y => r.pixel y (h - 1 - x)
  | 7 => .tabulate h w fun x y => r.pixel (w - 1 - y) (h - 1 - x)
  | 8 => .tabulate h w fun x y => r.pixel (w - 1 - y) x
  | _ => r

end ThermalLabel.Image
