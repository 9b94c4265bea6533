import DiagramScene.Raster.Color

/-!
# The dark theme

The dark theme inverts a color almost fully and then turns its hue by half a circle, so that light
and dark change places while red stays red.  The turn is a linear map of the three channels.  All
of it is computed in single precision, from left to right.
-/

namespace DiagramScene.Raster

/-- How far channels are inverted. -/
def inversion : Float32 := 0.93

/-- The turn of the hue by half a circle, one row for each channel. -/
def hueRows : List (Float32 × Float32 × Float32) := [
  (-0.574, 1.430, 0.144),
  (0.426, 0.430, 0.144),
  (0.426, 1.430, -0.856)]

/-- A channel as a share of full strength, inverted. -/
def inverted (c : UInt8) : Float32 :=
  let v := Float32.ofNat c.toNat / 255.0
  inversion * (1.0 - v) + (1.0 - inversion) * v

/-- The channel for a share of full strength; shares outside of the unit interval are cut off. -/
def channelOf (share : Float32) : UInt8 :=
  let cut : Float32 := if share < 0.0 then 0.0 else if 1.0 < share then 1.0 else share
  let level := (cut * 255.0).toFloat
  UInt8.ofNat (Number.wholePart 255 (Number.roundWith .nearestAway level))

/-- The channels of a color in the dark theme. -/
def darkChannels (red green blue : UInt8) : List UInt8 :=
  let r := inverted red
  let g := inverted green
  let b := inverted blue
  hueRows.map fun (x, y, z) => channelOf (x * r + y * g + z * b)

/-- A color in the dark theme; its opacity stays. -/
def Rgba.darkened (c : Rgba) : Rgba :=
  match darkChannels c.red c.green c.blue with
  | [r, g, b] => ⟨r, g, b, c.alpha⟩
  | _ => c

/-- A pixel in the dark theme.  Pixels that do not show are left alone. -/
def Pixel.darkened (p : Pixel) : Pixel :=
  if p.alpha = 0 then p else p.toRgba.darkened.toPixel

end DiagramScene.Raster
