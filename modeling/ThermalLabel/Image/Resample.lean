import ThermalLabel.Image.Raster
import ThermalLabel.Number.Rounding
/-!
# Scaling a raster

A raster is scaled one direction at a time. Each new sample is a weighted sum of old ones, the
weights taken from a windowed sine of three lobes that is as wide as a new sample and at least as
wide as an old one. Weights are fixed-point numbers. Colours are weighted by their opacity, so that
what is transparent lends no colour to its neighbours.
-/

namespace ThermalLabel.Image

/-- The number of fraction bits of a weight. -/
def weightBits : Nat := 22

def pi : Float := 3.141592653589793

/-- The sine of `pi t` over `pi t`. -/
def sinc (t : Float) : Float :=
  if t == 0.0 then 1.0
  else
    let a := t * pi
    Float.sin a / a

/-- The windowed sine, zero outside three lobes. -/
def lanczos (t : Float) : Float :=
  if -3.0 ≤ t ∧ t < 3.0 then sinc t * sinc (t / 3.0) else 0.0

/-- A number without its fraction, zero if it is negative. -/
def wholePart (x : Float) : Nat :=
  match floorOf x with
  | .ok n => n.toNat
  | .error _ => 0

/-- A weight as a fixed-point number, halves away from zero. -/
def fixedWeight (w : Float) : Int :=
  let scaled := w * 4194304.0
  if w < 0.0 then -(wholePart (0.5 - scaled) : Int) else wholePart (0.5 + scaled)

/-- The old samples that a new one is made of: the first of them, and the weights from there on. -/
structure Taps where
  start : Nat
  weights : Array Int
deriving Inhabited

/-- The taps of the new sample `i` when `n` samples become `m`. -/
def tapsOf (n m i : Nat) : Taps :=
  let scale := n.toFloat / m.toFloat
  let stretch := if scale < 1.0 then 1.0 else scale
  let support := 3.0 * stretch
  let centre := (i.toFloat + 0.5) * scale
  let start := wholePart (centre - support + 0.5)
  let stop := min n (wholePart (centre + support + 0.5))
  let step := 1.0 / stretch
  let raw := (List.range (stop - start)).map fun k =>
    lanczos (((start + k).toFloat - centre + 0.5) * step)
  let total := raw.foldl (· + ·) 0.0
  let weights := raw.map fun w => fixedWeight (if total == 0.0 then w else w / total)
  ⟨start, weights.toArray⟩

def clampChannel (n : Int) : Nat := if n < 0 then 0 else min 255 n.toNat

structure Sums where
  red : Int
  green : Int
  blue : Int
  alpha : Int

def Sums.add (s : Sums) (w : Int) (p : Rgba) : Sums :=
  ⟨s.red + w * p.red, s.green + w * p.green, s.blue + w * p.blue, s.alpha + w * p.alpha⟩

/-- Sums with the samples of a source from `k` on added, one for each weight. -/
def addWeighted (source : Nat → Rgba) (k : Nat) : List Int → Sums → Sums
  | [], s => s
  | w :: ws, s => addWeighted source (k + 1) ws (s.add w (source k))

/-- The weighted sums of the samples of a source, rounded. -/
def weigh (taps : Taps) (source : Nat → Rgba) : Rgba :=
  let half : Int := Nat.pow 2 (weightBits - 1)
  let s := addWeighted source taps.start taps.weights.toList ⟨half, half, half, half⟩
  ⟨clampChannel (s.red >>> weightBits), clampChannel (s.green >>> weightBits),
    clampChannel (s.blue >>> weightBits), clampChannel (s.alpha >>> weightBits)⟩

def scaleWidth (m : Nat) (r : Raster Rgba) : Raster Rgba :=
  let taps := Array.ofFn fun i : Fin m => tapsOf r.width m i
  .tabulate m r.height fun x y => weigh (taps.getD x default) fun k => r.pixel k y

def scaleHeight (m : Nat) (r : Raster Rgba) : Raster Rgba :=
  let taps := Array.ofFn fun i : Fin m => tapsOf r.height m i
  .tabulate r.width m fun x y => weigh (taps.getD y default) fun k => r.pixel x k

/-- A colour value weighted by an opacity, rounded. -/
def weighted (c a : Nat) : Nat :=
  let t := c * a + 128
  (t / 256 + t) / 256

def premultiply (p : Rgba) : Rgba :=
  ⟨weighted p.red p.alpha, weighted p.green p.alpha, weighted p.blue p.alpha, p.alpha⟩

def unpremultiply (p : Rgba) : Rgba :=
  if p.alpha = 0 ∨ p.alpha = 255 then p
  else
    let restore := fun c : Nat => min 255 (255 * c / p.alpha)
    ⟨restore p.red, restore p.green, restore p.blue, p.alpha⟩

/-- The directions that change, the one that shrinks much more first. -/
def scaleSides (w h : Nat) (r : Raster Rgba) : Raster Rgba :=
  let across := fun r : Raster Rgba => if r.width = w then r else scaleWidth w r
  let down := fun r : Raster Rgba => if r.height = h then r else scaleHeight h r
  if (r.height : Int) - h > 2 * ((r.width : Int) - w) then across (down r) else down (across r)

/-- A raster scaled to a size. At its own size it stays as it is. -/
def resample (w h : Nat) (r : Raster Rgba) : Raster Rgba :=
  if r.width = w ∧ r.height = h then r
  else (scaleSides w h (r.map premultiply)).map unpremultiply

end ThermalLabel.Image
