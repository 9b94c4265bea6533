/-!
# The hypotenuse

The length of the longest side of a right triangle, nearly always the floating point number next to
the true length.  Triangles that are very large or very small are scaled by a power of two, so that
the squares neither overflow nor vanish; a side that is too short to matter is added as it is.
-/

namespace DiagramScene.Number

/-- A power of two. -/
def powerOfTwo (exponent : Int) : Float := Float.scaleB 1.0 exponent

/-- The root of a sum of two squares after one step that corrects it.  The step divides the square
of the root less the two squares by twice the root.  It takes that difference from those between the
root and a side, which are small and lose nothing. -/
def correctedRoot (longer shorter : Float) : Float :=
  let root := (longer * longer + shorter * shorter).sqrt
  let excess :=
    if root ≤ 2.0 * shorter then
      let rest := root - shorter
      longer * (2.0 * rest - longer) + (rest - 2.0 * (longer - shorter)) * rest
    else
      let rest := root - longer
      2.0 * rest * (longer - 2.0 * shorter) + ((4.0 * rest - shorter) * shorter + rest * rest)
  root - excess / (2.0 * root)

/-- The hypotenuse over two sides, the longer one first, neither of them negative. -/
def hypotenuseOf (longer shorter : Float) : Float :=
  let negligible := powerOfTwo (-54)
  let factor := powerOfTwo (-600)
  if powerOfTwo 511 < longer then
    if shorter ≤ longer * negligible then longer + shorter
    else correctedRoot (longer * factor) (shorter * factor) / factor
  else if shorter < powerOfTwo (-459) then
    if shorter / negligible ≤ longer then longer + shorter
    else correctedRoot (longer / factor) (shorter / factor) * factor
  else if shorter ≤ longer * negligible then longer + shorter
  else correctedRoot longer shorter

/-- The length of a vector.  One with an infinite part is infinite. -/
def hypotenuse (x y : Float) : Float :=
  let a := x.abs
  let b := y.abs
  if a.isInf || b.isInf then 1.0 / 0.0
  else if a < b then hypotenuseOf b a
  else hypotenuseOf a b

end DiagramScene.Number
