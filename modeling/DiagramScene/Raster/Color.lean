import DiagramScene.Number.Whole
import DiagramScene.Text.Blank
import DiagramScene.Text.Utf8

/-!
# Colors

An `Rgba` is a color with its opacity, one byte for each channel.  `Rgba.parse?` reads the colors
that a canvas can have as its background: three names, and hexadecimal digits after a number sign.
A `Pixel` holds channels that are already multiplied by the opacity, which is how a canvas stores
them.
-/

namespace DiagramScene.Raster

/-- A color with its opacity. -/
structure Rgba where
  red : UInt8
  green : UInt8
  blue : UInt8
  alpha : UInt8
  deriving DecidableEq, Repr

/-- The greatest value of a channel: full strength, full opacity. -/
def channelMax : UInt8 := 255

/-! ### Reading and writing -/

/-- The value of a hexadecimal digit in lower case. -/
def hexDigit? (c : Char) : Option Nat :=
  if '0' ≤ c ∧ c ≤ '9' then some (c.toNat - '0'.toNat)
  else if 'a' ≤ c ∧ c ≤ 'f' then some (c.toNat - 'a'.toNat + 10)
  else none

/-- The byte with two hexadecimal digits. -/
def byteOf (high low : Nat) : UInt8 := UInt8.ofNat (16 * high + low)

/-- The channel with two hexadecimal digits, each of them a byte of a text.  Only the bytes of ASCII
characters are digits. -/
def channel? (high low : UInt8) : Option UInt8 := do
  some (byteOf (← hexDigit? (Char.ofUInt8 high)) (← hexDigit? (Char.ofUInt8 low)))

namespace Rgba

/-- The color that bytes name, one or two hexadecimal digits for each channel.  A color without
digits for its opacity is opaque. -/
def ofBytes? : Bytes → Option Rgba
  | [r, g, b] => do
    some ⟨← channel? r r, ← channel? g g, ← channel? b b, channelMax⟩
  | [r, g, b, a] => do
    some ⟨← channel? r r, ← channel? g g, ← channel? b b, ← channel? a a⟩
  | [r, r', g, g', b, b'] => do
    some ⟨← channel? r r', ← channel? g g', ← channel? b b', channelMax⟩
  | [r, r', g, g', b, b', a, a'] => do
    some ⟨← channel? r r', ← channel? g g', ← channel? b b', ← channel? a a'⟩
  | _ => none

/-- The colors that have names. -/
def named : List (String × Rgba) := [
  ("transparent", ⟨0, 0, 0, 0⟩),
  ("white", ⟨channelMax, channelMax, channelMax, channelMax⟩),
  ("black", ⟨0, 0, 0, channelMax⟩)]

/-- The color after a number sign.  The bytes of the text are counted, not its characters. -/
def ofHex? : List Char → Option Rgba
  | '#' :: cs => ofBytes? (Text.Utf8.encode (String.ofList cs))
  | _ => none

/-- The color that a text names.  Blank characters around it and the case of ASCII letters do not
matter. -/
def parse? (text : String) : Option Rgba :=
  let cs := (Text.trimChars text.toList).map Char.toLower
  match named.lookup (String.ofList cs) with
  | some color => some color
  | none => ofHex? cs

/-- The two hexadecimal digits of a channel. -/
def channelText (v : UInt8) : List Char :=
  [Nat.digitChar (v.toNat / 16), Nat.digitChar (v.toNat % 16)]

/-- The color with two digits for each of its channels. -/
def toHex (c : Rgba) : String :=
  String.ofList ('#' :: ([c.red, c.green, c.blue, c.alpha].flatMap channelText))

/-- The color lets nothing shine through. -/
def isOpaque (c : Rgba) : Bool := c.alpha == channelMax

end Rgba

/-! ### Pixels -/

/-- A color whose channels are multiplied by its opacity. -/
structure Pixel where
  red : UInt8
  green : UInt8
  blue : UInt8
  alpha : UInt8
  deriving DecidableEq, Repr

/-- A channel multiplied by an opacity: `c * a / 255`, rounded. -/
def multiplied (a c : UInt8) : UInt8 :=
  let p := c.toNat * a.toNat + 128
  UInt8.ofNat ((p + p / 256) / 256)

/-- A channel divided by an opacity, rounded; without opacity there is nothing to divide. -/
def divided (a c : UInt8) : UInt8 :=
  let share := Float.ofNat a.toNat / 255.0
  UInt8.ofNat (Number.wholePart 255 (Float.ofNat c.toNat / share + 0.5))

/-- The pixel of a color. -/
def Rgba.toPixel (c : Rgba) : Pixel :=
  if c.isOpaque then ⟨c.red, c.green, c.blue, c.alpha⟩
  else ⟨multiplied c.alpha c.red, multiplied c.alpha c.green, multiplied c.alpha c.blue, c.alpha⟩

/-- The color of a pixel. -/
def Pixel.toRgba (p : Pixel) : Rgba :=
  if p.alpha = channelMax then ⟨p.red, p.green, p.blue, p.alpha⟩
  else ⟨divided p.alpha p.red, divided p.alpha p.green, divided p.alpha p.blue, p.alpha⟩

/-- The pixel of a canvas on which nothing is drawn. -/
def Pixel.clear : Pixel := ⟨0, 0, 0, 0⟩

end DiagramScene.Raster
