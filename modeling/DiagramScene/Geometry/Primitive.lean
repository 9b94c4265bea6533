import DiagramScene.Geometry.Box
import DiagramScene.Json.Value
import DiagramScene.Number.Reading
import DiagramScene.Text.Blank
import DiagramScene.Text.Measure

/-!
# Primitive shapes

A `Primitive` is the geometry of a shape without its looks.  `Primitive.ofAttributes` reads one
from a kind and an open set of attributes, and `Primitive.box?` estimates the box that it covers:
the measurable shapes have one, an unknown kind and a group without a measurable child have none.
-/

namespace DiagramScene

/-- The geometry of a shape. -/
inductive Primitive (α : Type) where
  /-- Text whose first line stands with its left end on the base line at the point. -/
  | text (x y : α) (content : String) (fontSize : α) (lineHeight : Option α)
  | rect (x y width height : α)
  | image (x y width height : α)
  | circle (cx cy r : α)
  | ellipse (cx cy rx ry : α)
  | line (x1 y1 x2 y2 : α)
  | polyline (points : List (Point α))
  | group (children : List (Primitive α))
  | unknown (kind : String)
  deriving Repr

namespace Primitive

/-! ### Reading attributes -/

/-- A text without the units at its end. -/
def dropUnits (cs : List Char) : List Char :=
  go cs.length cs.reverse
where
  /-- Drops one unit per step from the reversed text. -/
  go : Nat → List Char → List Char
    | 0, cs => cs.reverse
    | n + 1, 'x' :: 'p' :: cs => go n cs
    | _ + 1, cs => cs.reverse

/-- The finite number that an attribute gives, as a number or as a text that may name pixels. -/
def numberAttribute? (attrs : Members) (key : String) : Option Float := do
  let x ← match ← attrs.get? key with
    | .num n => some n.toFloat
    | .str s => Number.readDecimal? (String.ofList (dropUnits (Text.trimChars s.toList)))
    | _ => none
  if x.isFinite then some x else none

/-- A point given as a pair of numbers or as an object with two coordinates. -/
def pointOf? : Json → Option (Point Float)
  | .arr [a, b] => do
    some ⟨Scalar.finiteOrZero (← a.number?), Scalar.finiteOrZero (← b.number?)⟩
  | .obj ms => do
    let x ← (Keyed.get? ms "x").bind Json.number?
    let y ← (Keyed.get? ms "y").bind Json.number?
    some ⟨Scalar.finiteOrZero x, Scalar.finiteOrZero y⟩
  | _ => none

/-- The text of an attribute; empty if there is none. -/
def textAttribute (attrs : Members) (key : String) : String :=
  ((attrs.get? key).bind Json.text?).getD ""

/-- The primitive of a kind.  The children of a group are read before. -/
def build (kind : String) (attrs : Members) (children : List (Primitive Float)) :
    Primitive Float :=
  let number (key : String) := (numberAttribute? attrs key).getD 0.0
  match (Text.trimmed kind).map Char.toLower with
  | "text" =>
    let content := ((attrs.get? "content").or (attrs.get? "text")).bind Json.text?
    let fontSize := (numberAttribute? attrs "font-size").or (numberAttribute? attrs "fontSize")
    .text (number "x") (number "y") (content.getD "") (fontSize.getD TextStyle.defaultFontSize)
      (numberAttribute? attrs "lineHeight")
  | "rect" | "rectangle" => .rect (number "x") (number "y") (number "width") (number "height")
  | "image" => .image (number "x") (number "y") (number "width") (number "height")
  | "circle" => .circle (number "cx") (number "cy") (number "r")
  | "ellipse" => .ellipse (number "cx") (number "cy") (number "rx") (number "ry")
  | "line" | "arrow" => .line (number "x1") (number "y1") (number "x2") (number "y2")
  | "polyline" | "polygon" =>
    .polyline ((((attrs.get? "points").bind Json.items?).getD []).filterMap pointOf?)
  | "g" | "group" => .group children
  | other => .unknown other

mutual

/-- The primitives that the attribute `children` lists. -/
def childrenOf : List (String × Json) → List (Primitive Float)
  | [] => []
  | (key, value) :: ms => if key = "children" then itemsOf value else childrenOf ms

/-- The primitives of the objects in an array. -/
def itemsOf : Json → List (Primitive Float)
  | .arr xs => listOf xs
  | _ => []

/-- The primitives of the objects in a list. -/
def listOf : List Json → List (Primitive Float)
  | [] => []
  | x :: xs => match x with
    | .obj ms => build (textAttribute ms "kind") ms (childrenOf ms) :: listOf xs
    | _ => listOf xs

end

/-- The primitive of a kind with its attributes.  An attribute that is missing or no finite number
counts as zero, a missing font size as the usual one. -/
def ofAttributes (kind : String) (attrs : Members) : Primitive Float :=
  build kind attrs (childrenOf attrs)

/-! ### Estimating boxes -/

variable {α : Type} [Scalar α]

mutual

/-- The box that a primitive covers, if it can be measured. -/
def box? (measurer : Measurer α) : Primitive α → Option (Box α)
  | text x y content fontSize lineHeight =>
    let x := Scalar.finiteOrZero x
    let y := Scalar.finiteOrZero y
    if content.isEmpty then some (Box.zeroAt x y)
    else
      let fontSize := if Scalar.isFinite fontSize then fontSize else TextStyle.defaultFontSize
      let m := measurer content ⟨none, fontSize, lineHeight⟩
      some (Box.of x (y - m.height) m.width m.height)
  | rect x y width height => some (Box.of x y width height)
  | image x y width height => some (Box.of x y width height)
  | circle cx cy r =>
    let r := Scalar.abs (Scalar.finiteOrZero r)
    some (Box.of (cx - r) (cy - r) (2.0 * r) (2.0 * r))
  | ellipse cx cy rx ry =>
    let rx := Scalar.abs (Scalar.finiteOrZero rx)
    let ry := Scalar.abs (Scalar.finiteOrZero ry)
    some (Box.of (cx - rx) (cy - ry) (2.0 * rx) (2.0 * ry))
  | line x1 y1 x2 y2 =>
    Box.ofPoints? [⟨Scalar.finiteOrZero x1, Scalar.finiteOrZero y1⟩,
      ⟨Scalar.finiteOrZero x2, Scalar.finiteOrZero y2⟩]
  | polyline points => Box.ofPoints? points
  | group children => Box.unionAll (boxes measurer children)
  | unknown _ => none

/-- The boxes of the primitives of a list that can be measured. -/
def boxes (measurer : Measurer α) : List (Primitive α) → List (Box α)
  | [] => []
  | p :: ps => match box? measurer p with
    | some b => b :: boxes measurer ps
    | none => boxes measurer ps

end

/-- The box that a primitive covers; the box without extent at the origin if it cannot be
measured. -/
def box (measurer : Measurer α) (p : Primitive α) : Box α :=
  (box? measurer p).getD Box.zero

end Primitive

end DiagramScene
