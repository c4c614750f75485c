import ThermalLabel.Number.Rounding
/-!
# Units of length

The editor works in pixels of 96 to the inch, the label in millimetres, fonts in points and the
printer in dots, eight to the millimetre. Positions in dots are whole; a drag on a zoomed canvas
is measured in screen pixels.
-/

namespace ThermalLabel

/-- Editor pixels to a millimetre. -/
def pixelsPerMillimeter : Float := 96.0 / 25.4

def dotsPerMillimeter : Nat := 8

def dotScale : Float := 8.0

/-- Dots to a point, at 203 dots to the inch. -/
def dotsPerPoint : Float := 203.0 / 72.0

def minZoom : Float := 0.25

def maxZoom : Float := 3.0

def pixelsToMillimeters (px : Float) : Float := px / pixelsPerMillimeter

def pixelsToDots (px : Float) : Except NumberError Int :=
  roundHalfUp (px / pixelsPerMillimeter * dotScale)

def millimetersToDots (mm : Float) : Except NumberError Int :=
  roundHalfUp (mm * dotScale)

def pointsToDots (pt : Float) : Except NumberError Int :=
  roundHalfUp (pt * dotsPerPoint)

def dotsToMillimeters (dots : Float) : Float := dots / dotScale

def clampZoom (zoom : Float) : Float := atLeast minZoom (atMost maxZoom zoom)

/-- A distance on the screen as a distance on the unzoomed canvas. -/
def screenToLogical (distance zoom : Float) : Float := distance / clampZoom zoom

/-- A distance on the unzoomed canvas as a distance on the screen. -/
def logicalToScreen (distance zoom : Float) : Float := distance * clampZoom zoom

end ThermalLabel
