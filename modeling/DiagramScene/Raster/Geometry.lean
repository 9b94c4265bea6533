import DiagramScene.Scalar

/-!
# The size of an image

The export scale says how large the image of a drawing is.  A bound on the longer side makes the
scale smaller where the image would exceed it, and never larger.  Sides are rounded up to whole
pixels, so that nothing is cropped, and are at least one pixel long.
-/

namespace DiagramScene.Raster

variable {α : Type} [Scalar α]

/-- The size of a scaled drawing. -/
structure Dimensions (α : Type) where
  width : α
  height : α
  scale : α
  deriving BEq, Repr

/-- The size of a drawing under a scale. -/
def Dimensions.scaled (width height scale : α) : Dimensions α :=
  ⟨width * scale, height * scale, scale⟩

/-- The longer side. -/
def Dimensions.longest (d : Dimensions α) : α := Scalar.max d.width d.height

/-- The size of an image in pixels, and the scale in which it is drawn. -/
structure PixelSize (α : Type) where
  width : Nat
  height : Nat
  scale : α
  deriving BEq, Repr

/-- The greatest length of a side. -/
def sideMax : Nat := 4294967295

/-- The number of pixels of a side. -/
def pixels (side : α) : Nat :=
  Nat.max 1 (Scalar.wholePart sideMax (Scalar.ceil side))

/-- The size of a drawing under the wanted scale and the wanted bound.  Wishes that are not finite
and positive do not count. -/
def fittedDimensions (width height : α) (scale bound : Option α) : Dimensions α :=
  let wanted := Dimensions.scaled width height ((scale.bind Scalar.positive?).getD 1.0)
  match bound.bind Scalar.positive? with
  | none => wanted
  | some m =>
    if Scalar.lt m wanted.longest then
      .scaled width height (wanted.scale * m / wanted.longest)
    else wanted

/-- The size of the image of a drawing. -/
def pixelSize (width height : α) (scale bound : Option α) : PixelSize α :=
  let d := fittedDimensions width height scale bound
  ⟨pixels d.width, pixels d.height, Scalar.single d.scale⟩

end DiagramScene.Raster
