import DiagramScene.Element.Basic

/-!
# Outlines

The outline of an element is the curve that its stroke follows, without color or rotation.  Lines
with roundness run smoothly through their points: each piece is a cubic curve whose control points
lie along the direction from the point before to the point after.  The neighbours of a point are
looked up by their numbers, which may go past the ends of the path.
-/

namespace DiagramScene.Svg

variable {α : Type} [Scalar α]

/-- One step of a path. -/
inductive PathStep (α : Type) where
  | move (p : Point α)
  | line (p : Point α)
  | curve (control₁ control₂ p : Point α)
  deriving BEq, Repr

/-- The curve that a stroke follows. -/
inductive Outline (α : Type) where
  | rect (x y width height radius : α)
  | polygon (points : List (Point α))
  | ellipse (cx cy rx ry : α)
  | path (steps : List (PathStep α))
  deriving BEq, Repr

/-! ### Paths -/

/-- Straight lines from point to point. -/
def straightPath : List (Point α) → List (PathStep α)
  | [] => []
  | p :: ps => .move p :: ps.map .line

/-- How much of the way between the neighbours of a point is taken for its direction. -/
def tension : α := 0.5

/-- A point moved along a direction by a third of the tension. -/
def alongDirection (p before after : Point α) : Point α where
  x := p.x + (after.x - before.x) * tension / 3.0
  y := p.y + (after.y - before.y) * tension / 3.0

/-- A point moved against a direction by a third of the tension. -/
def againstDirection (p before after : Point α) : Point α where
  x := p.x - (after.x - before.x) * tension / 3.0
  y := p.y - (after.y - before.y) * tension / 3.0

/-- The place in a list of so many points that a number stands for: the first one if the number is
below zero, and the last one if it is too large. -/
def clampedIndex (count : Nat) (i : Int) : Nat := (max 0 (min i ((count : Int) - 1))).toNat

/-- The point of a path with a number. -/
def pointAt? (points : List (Point α)) (i : Int) : Option (Point α) :=
  points[clampedIndex points.length i]?

/-- The curve from the point with a number to the next one.  Past the ends of the path its last
point stands for the missing neighbour. -/
def curve? (points : List (Point α)) (i : Nat) : Option (PathStep α) := do
  let before ← pointAt? points (i - 1)
  let p ← pointAt? points i
  let q ← pointAt? points (i + 1)
  let after ← pointAt? points (i + 2)
  return .curve (alongDirection p before q) (againstDirection q p after) q

/-- A smooth curve through all points; through two of them a straight line. -/
def smoothPath (points : List (Point α)) : List (PathStep α) :=
  match points with
  | p :: _ :: _ :: _ => .move p :: (List.range (points.length - 1)).filterMap (curve? points)
  | _ => straightPath points

/-! ### Corners -/

/-- The radius of proportional corners as a share of the shorter side. -/
def proportionalRadius : α := 0.25

/-- The fixed radius of adaptive corners without one of their own. -/
def adaptiveRadius : α := 32.0

/-- The radius of the corners of a box whose shorter side has a length.  Adaptive corners are
proportional as long as that stays below their fixed radius. -/
def cornerRadius (size : α) (r : Roundness α) : α :=
  if r.kind = Roundness.adaptiveKind then
    let fixed := r.value.getD adaptiveRadius
    if Scalar.le size (fixed / proportionalRadius) then size * proportionalRadius else fixed
  else if r.kind = Roundness.legacyKind || r.kind = Roundness.proportionalKind then
    size * proportionalRadius
  else 0.0

/-- The radius of the corners of frames. -/
def frameRadius : α := 8.0

/-! ### Elements -/

/-- The points of a path that are finite, in scene coordinates. -/
def finitePoints (e : Element α) (points : List (α × α)) : List (Point α) :=
  (points.filter fun p => Scalar.isFinite p.1 && Scalar.isFinite p.2).map fun p =>
    ⟨e.x + p.1, e.y + p.2⟩

/-- The path of a line or an arrow through its points. -/
def linearSteps (e : Element α) (points : List (Point α)) : List (PathStep α) :=
  if e.roundness.isSome then smoothPath points else straightPath points

/-- The path of a freehand stroke.  A single point is a line without length, which still shows. -/
def strokeSteps : List (Point α) → List (PathStep α)
  | [p] => [.move p, .line p]
  | points => smoothPath points

/-- The rectangle of an element with corners of a radius. -/
def rectOutline (e : Element α) (radius : α) : Outline α :=
  .rect e.x e.y (Scalar.nonneg e.width) (Scalar.nonneg e.height) radius

/-- The radius of the corners of a rectangle. -/
def rectRadius (e : Element α) : α :=
  match e.roundness with
  | none => 0.0
  | some r => cornerRadius (Scalar.min e.width e.height) r

/-- The outline of an element; `none` for texts and unknown kinds. -/
def outline? (e : Element α) : Option (Outline α) :=
  match e.kind with
  | .rectangle | .embeddable | .iframe => some (rectOutline e (rectRadius e))
  | .diamond =>
    let middleX := e.x + e.width / 2.0
    let middleY := e.y + e.height / 2.0
    some (.polygon [⟨middleX, e.y⟩, ⟨e.x + e.width, middleY⟩, ⟨middleX, e.y + e.height⟩,
      ⟨e.x, middleY⟩])
  | .ellipse =>
    some (.ellipse (e.x + e.width / 2.0) (e.y + e.height / 2.0) (Scalar.abs (e.width / 2.0))
      (Scalar.abs (e.height / 2.0)))
  | .line path | .arrow path => some (.path (linearSteps e (finitePoints e path.points)))
  | .freedraw stroke => some (.path (strokeSteps (finitePoints e stroke.points)))
  | .image _ => some (rectOutline e 0.0)
  | .frame _ | .magicFrame _ => some (rectOutline e frameRadius)
  | .text _ | .other _ => none

/-- The middle of an element. -/
def middle (e : Element α) : Point α := ⟨e.x + e.width / 2.0, e.y + e.height / 2.0⟩

/-- An image of a scale is flipped about its middle. -/
def isFlipped (scale : α × α) : Bool := Scalar.lt scale.1 0.0 || Scalar.lt scale.2 0.0

/-! ### The area of a drawing -/

/-- The smallest box that contains the boxes of all elements that are not deleted; the box without
extent at the origin if none of them has one. -/
def contentBounds (measurer : Measurer α) (elements : List (Element α)) : Box α :=
  (Box.unionAll ((elements.filter fun e => !e.isDeleted).filterMap fun e =>
    e.primitive.box? measurer)).getD Box.zero

/-- The room around a drawing that does not ask for any. -/
def defaultPadding : α := 10.0

/-- The room around a drawing. -/
def paddingOf (wanted : Option α) : α :=
  match wanted with
  | none => Scalar.nonneg defaultPadding
  | some p => Scalar.nonneg (if Scalar.isFinite p then p else defaultPadding)

/-- The area that a drawing covers, with the room around it. -/
def viewport (measurer : Measurer α) (padding : α) (elements : List (Element α)) : Box α :=
  let bounds := contentBounds measurer elements
  Box.of (bounds.x - padding) (bounds.y - padding) (bounds.width + 2.0 * padding)
    (bounds.height + 2.0 * padding)

end DiagramScene.Svg
