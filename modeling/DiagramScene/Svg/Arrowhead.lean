import DiagramScene.Geometry.Box
import DiagramScene.Number.Hypotenuse

/-!
# Arrowheads

The geometry of an arrowhead follows from the last segment of its line.  It grows with the segment
up to a size of its own, and lies at a fixed angle to it.
-/

namespace DiagramScene.Svg

/-- The geometry of an arrowhead.  An open one is filled with the background color. -/
inductive Arrowhead where
  | lines (segments : List (Point Float × Point Float))
  | polygon (points : List (Point Float)) (isOpen : Bool)
  | circle (center : Point Float) (radius : Float) (isOpen : Bool)
  deriving BEq, Repr

namespace Arrowhead

/-- The shape of an arrowhead, apart from its size. -/
inductive Form where
  | wings
  | bar
  | circle
  | triangle
  | diamond
  deriving DecidableEq, Repr

/-- What an arrowhead with a name looks like: its form, whether it is open, the greatest length,
the angle in degrees and the share of the segment that it may take. -/
structure Style where
  form : Form
  isOpen : Bool
  length : Float
  angle : Float
  share : Float

/-- The arrowhead with a name. -/
def style? : String → Option Style
  | "arrow" => some ⟨.wings, false, 25.0, 20.0, 0.5⟩
  | "bar" => some ⟨.bar, false, 15.0, 90.0, 0.5⟩
  | "dot" | "circle" => some ⟨.circle, false, 15.0, 25.0, 0.5⟩
  | "circle_outline" => some ⟨.circle, true, 15.0, 25.0, 0.5⟩
  | "triangle" => some ⟨.triangle, false, 15.0, 25.0, 0.5⟩
  | "triangle_outline" => some ⟨.triangle, true, 15.0, 25.0, 0.5⟩
  | "diamond" => some ⟨.diamond, false, 12.0, 25.0, 0.25⟩
  | "diamond_outline" => some ⟨.diamond, true, 12.0, 25.0, 0.25⟩
  | _ => none

/-- Half a turn in radians. -/
def pi : Float := 3.141592653589793

/-- An angle in radians. -/
def radians (degrees : Float) : Float := degrees * (pi / 180.0)

/-- An angle in degrees. -/
def degrees (radians : Float) : Float := radians * (180.0 / pi)

/-- A point turned about a center. -/
def rotate (p center : Point Float) (angle : Float) : Point Float :=
  let dx := p.x - center.x
  let dy := p.y - center.y
  let sin := angle.sin
  let cos := angle.cos
  ⟨center.x + dx * cos - dy * sin, center.y + dx * sin + dy * cos⟩

/-- The arrowhead at the tip of a segment.  A segment without length has one without lines. -/
def place (style : Style) (tail tip : Point Float) (strokeWidth : Float) : Arrowhead :=
  let dx := tip.x - tail.x
  let dy := tip.y - tail.y
  let len := Number.hypotenuse dx dy
  if len < 1.0e-6 then .lines []
  else
    let nx := dx / len
    let ny := dy / len
    let size := Scalar.min style.length (len * style.share)
    let back : Point Float := ⟨tip.x - nx * size, tip.y - ny * size⟩
    let angle := radians style.angle
    let left := rotate back tip (-angle)
    let right := rotate back tip angle
    match style.form with
    | .circle =>
      .circle tip (Scalar.max ((size + strokeWidth - 2.0) / 2.0) 0.5) style.isOpen
    | .bar => .lines [(left, right)]
    | .wings => .lines [(left, tip), (right, tip)]
    | .diamond =>
      let opposite : Point Float := ⟨tip.x - nx * size * 2.0, tip.y - ny * size * 2.0⟩
      .polygon [tip, left, opposite, right] style.isOpen
    | .triangle => .polygon [tip, left, right] style.isOpen

end Arrowhead

end DiagramScene.Svg
