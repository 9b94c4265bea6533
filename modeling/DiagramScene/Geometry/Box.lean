import DiagramScene.Scalar

/-!
# Points and boxes

A `Box` is an axis-aligned rectangle: a corner, a width and a height.  `Box.of` is the one way in
which boxes are made from computed numbers; it replaces values that are not finite and negative
sizes by zero.  A box without extent still has a place and counts in a union.
-/

namespace DiagramScene

/-- A point of the scene. -/
structure Point (α : Type) where
  x : α
  y : α
  deriving BEq, DecidableEq, Repr

/-- An axis-aligned rectangle. -/
structure Box (α : Type) where
  x : α
  y : α
  width : α
  height : α
  deriving BEq, DecidableEq, Repr

namespace Box

variable {α : Type} [Scalar α]

/-- The box with a corner and a size, of which only the usable parts count. -/
def of (x y width height : α) : Box α where
  x := Scalar.finiteOrZero x
  y := Scalar.finiteOrZero y
  width := Scalar.nonneg (Scalar.finiteOrZero width)
  height := Scalar.nonneg (Scalar.finiteOrZero height)

/-- The box without extent at a point. -/
def zeroAt (x y : α) : Box α := of x y 0.0 0.0

/-- The box without extent at the origin. -/
def zero : Box α := zeroAt 0.0 0.0

/-- The right edge. -/
def maxX (b : Box α) : α := b.x + b.width

/-- The lower edge. -/
def maxY (b : Box α) : α := b.y + b.height

/-- The middle of the box. -/
def center (b : Box α) : Point α := ⟨b.x + b.width / 2.0, b.y + b.height / 2.0⟩

/-- The box has no extent. -/
def isZero (b : Box α) : Bool := Scalar.eq b.width 0.0 && Scalar.eq b.height 0.0

/-- The smallest box that contains two boxes. -/
def union (a b : Box α) : Box α :=
  let left := Scalar.min a.x b.x
  let top := Scalar.min a.y b.y
  let right := Scalar.max a.maxX b.maxX
  let bottom := Scalar.max a.maxY b.maxY
  of left top (right - left) (bottom - top)

/-- The union of a list of boxes; `none` if there is no box. -/
def unionAll : List (Box α) → Option (Box α)
  | [] => none
  | b :: bs => some (bs.foldl union b)

/-- The lower corner of the smallest box that contains the points seen so far and one more. -/
def lowerCorner (p q : Point α) : Point α where
  x := if Scalar.le p.x q.x then p.x else q.x
  y := if Scalar.le p.y q.y then p.y else q.y

/-- The upper corner of the smallest box that contains the points seen so far and one more. -/
def upperCorner (p q : Point α) : Point α where
  x := if Scalar.le q.x p.x then p.x else q.x
  y := if Scalar.le q.y p.y then p.y else q.y

/-- The smallest box that contains the points of a list; `none` if there is no point. -/
def ofPoints? : List (Point α) → Option (Box α)
  | [] => none
  | p :: ps =>
    let low := ps.foldl lowerCorner p
    let high := ps.foldl upperCorner p
    some (of low.x low.y (high.x - low.x) (high.y - low.y))

end Box

end DiagramScene
