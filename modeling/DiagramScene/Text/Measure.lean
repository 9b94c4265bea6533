import DiagramScene.Scalar
import DiagramScene.Text.Lines

/-!
# Measuring text

A `Measurer` gives the size of a text in a style.  The measurer by factors needs no font: every
character is as wide as every other, and every line as high.  The width is that of the longest
line, the height that of all lines together.
-/

namespace DiagramScene

/-- The style of a text, as far as its size depends on it. -/
structure TextStyle (α : Type) where
  fontFamily : Option String
  fontSize : α
  lineHeight : Option α
  deriving BEq, Repr

/-- The size of a text. -/
structure TextMetrics (α : Type) where
  width : α
  height : α
  lineCount : Nat
  /-- The height of a line as a multiple of the font size. -/
  lineHeight : α
  deriving BEq, Repr

/-- What gives the size of a text in a style. -/
abbrev Measurer (α : Type) := String → TextStyle α → TextMetrics α

namespace TextStyle

variable {α : Type} [Scalar α]

/-- The font size of a text without one. -/
def defaultFontSize : α := 16.0

/-- The style with a font size. -/
def ofFontSize (fontSize : α) : TextStyle α := ⟨none, fontSize, none⟩

/-- The style of a text of which nothing is known. -/
def default : TextStyle α := ofFontSize defaultFontSize

end TextStyle

namespace Measurer

variable {α : Type} [Scalar α]

/-- The number of characters of the longest line. -/
def longest (lines : List (List Char)) : Nat :=
  (lines.map List.length).foldl Nat.max 0

/-- The measurer by factors: the width of a character and the height of a line as multiples of the
font size. -/
def ofFactors (charWidth lineHeight : α) : Measurer α := fun text style =>
  let lineFactor := (style.lineHeight.bind Scalar.positive?).getD lineHeight
  let lines := Text.textLines text.toList
  let fontSize :=
    if Scalar.isFinite style.fontSize then Scalar.nonneg style.fontSize
    else TextStyle.defaultFontSize
  { width := Scalar.ofNat (longest lines) * fontSize * charWidth
    height := Scalar.ofNat lines.length * fontSize * lineFactor
    lineCount := lines.length
    lineHeight := lineFactor }

/-- The width of a character as a multiple of the font size. -/
def defaultCharWidth : α := 0.6

/-- The height of a line as a multiple of the font size. -/
def defaultLineHeight : α := 1.25

/-- The measurer with the usual factors. -/
def default : Measurer α := ofFactors defaultCharWidth defaultLineHeight

/-- The height of a line as a multiple of the font size, as a measurer has it. -/
def lineHeight (measurer : Measurer α) : α :=
  (measurer "" (TextStyle.ofFontSize 1.0)).lineHeight

end Measurer

end DiagramScene
