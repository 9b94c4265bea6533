import DiagramScene.Geometry.Box
import DiagramScene.Json.Codec

/-!
# Boxes in JSON

A box is read as it stands: unlike `Box.of`, the table of `Box` neither drops values nor bounds
them.
-/

namespace DiagramScene

open Json (Schema)

/-- The table of `Box`. -/
def Box.schema : Schema (Box Float) where
  name := "BBox"
  start := ⟨0.0, 0.0, 0.0, 0.0⟩
  fields := [
    .required "x" .float (·.x) fun v s => { s with x := v },
    .required "y" .float (·.y) fun v s => { s with y := v },
    .required "width" .float (·.width) fun v s => { s with width := v },
    .required "height" .float (·.height) fun v s => { s with height := v }]
  unknown := .ignore

end DiagramScene
