/-!
# Rasters

A raster is a rectangle of pixels, row by row from the top left. Rasters are made from a rule that
gives the pixel of each position.
-/

namespace ThermalLabel.Image

structure Raster (α : Type) where
  width : Nat
  height : Nat
  pixels : Array α
  size_eq : pixels.size = width * height

/-- A colour with 8 bits to a channel. -/
structure Rgb where
  red : Nat
  green : Nat
  blue : Nat
deriving DecidableEq, Repr, Inhabited

structure Rgba where
  red : Nat
  green : Nat
  blue : Nat
  alpha : Nat
deriving DecidableEq, Repr, Inhabited

def Rgb.white : Rgb := ⟨255, 255, 255⟩

namespace Raster

variable {α β : Type}

/-- The raster of a rule for the pixel in a column and a row. -/
def tabulate (width height : Nat) (pixel : Nat → Nat → α) : Raster α where
  width := width
  height := height
  pixels := Array.ofFn fun i : Fin (width * height) => pixel (i.val % width) (i.val / width)
  size_eq := Array.size_ofFn

/-- The pixel in a column and a row; outside the rectangle there is none. -/
def pixel? (r : Raster α) (x y : Nat) : Option α :=
  if x < r.width then r.pixels[y * r.width + x]? else none

/-- The pixel in a column and a row, or the default of its type outside. -/
def pixel [Inhabited α] (r : Raster α) (x y : Nat) : α := (r.pixel? x y).getD default

def map (f : α → β) (r : Raster α) : Raster β where
  width := r.width
  height := r.height
  pixels := r.pixels.map f
  size_eq := by simp [r.size_eq]

@[simp] theorem width_tabulate (w h : Nat) (f : Nat → Nat → α) : (tabulate w h f).width = w := rfl

@[simp] theorem height_tabulate (w h : Nat) (f : Nat → Nat → α) : (tabulate w h f).height = h := rfl

@[simp] theorem width_map (f : α → β) (r : Raster α) : (r.map f).width = r.width := rfl

@[simp] theorem height_map (f : α → β) (r : Raster α) : (r.map f).height = r.height := rfl

theorem pixel?_tabulate (w h : Nat) (f : Nat → Nat → α) (x y : Nat) (hx : x < w) (hy : y < h) :
    (tabulate w h f).pixel? x y = some (f x y) := by
  have hi : y * w + x < w * h :=
    calc y * w + x < y * w + w := by omega
      _ = (y + 1) * w := by rw [Nat.add_mul, Nat.one_mul]
      _ ≤ h * w := Nat.mul_le_mul_right w hy
      _ = w * h := Nat.mul_comm h w
  have hmod : (y * w + x) % w = x := by
    rw [Nat.add_comm, Nat.add_mul_mod_self_right, Nat.mod_eq_of_lt hx]
  have hdiv : (y * w + x) / w = y := by
    rw [Nat.add_comm, Nat.add_mul_div_right _ _ (Nat.zero_lt_of_lt hx), Nat.div_eq_of_lt hx,
      Nat.zero_add]
  simp [pixel?, tabulate, hx, hi, hmod, hdiv]

end Raster
end ThermalLabel.Image
