import Mathlib
import DiagramScene.Proofs.Number.Exact
import DiagramScene.Proofs.Text.Lines
import DiagramScene.Text.Measure

/-!
# Sizes of texts

In exact arithmetic the measurer by factors takes the width of a text from its longest line and the
height from the number of its lines (`ofFactors_eq`).  A style has a say in the height of a line
only where it asks for one above zero (`lineFactor`).
-/

namespace DiagramScene.Measurer

/-! ### The longest line -/

/-- The greatest of some numbers and one more. -/
theorem foldl_max (start : Nat) (ns : List Nat) :
    ns.foldl Nat.max start = max start (ns.foldl Nat.max 0) := by
  have h : ns.foldl max (max start 0) = max start (ns.foldl max 0) := List.foldl_assoc
  rwa [Nat.max_zero] at h

/-- The longest line of two texts is the longer one of their longest lines. -/
theorem longest_append (ls ls' : List (List Char)) :
    longest (ls ++ ls') = max (longest ls) (longest ls') := by
  rw [longest, List.map_append, List.foldl_append, foldl_max, longest, longest]

/-! ### Exact sizes -/

/-- The height of a line as a multiple of the font size: the one that a style asks for, or the usual
one if that is not above zero. -/
def lineFactor (usual : ℚ) (own : Option ℚ) : ℚ := (own.bind Scalar.positive?).getD usual

theorem lineFactor_of_pos (usual : ℚ) {own : ℚ} (h : 0 < own) :
    lineFactor usual (some own) = own := by
  simp [lineFactor, h]

theorem lineFactor_of_nonpos (usual : ℚ) {own : ℚ} (h : own ≤ 0) :
    lineFactor usual (some own) = usual := by
  simp [lineFactor, h.not_gt]

/-- In exact arithmetic, a text is as wide as its longest line and as high as all of its lines.  A
font size below zero counts as zero. -/
theorem ofFactors_eq (charWidth usual : ℚ) (text : String) (style : TextStyle ℚ) :
    ofFactors charWidth usual text style =
      { width := longest (Text.textLines text.toList) * (style.fontSize ⊔ 0) * charWidth
        height := (Text.textLines text.toList).length * (style.fontSize ⊔ 0) *
          lineFactor usual style.lineHeight
        lineCount := (Text.textLines text.toList).length
        lineHeight := lineFactor usual style.lineHeight } := by
  unfold ofFactors
  dsimp only
  rw [Scalar.isFinite_rat, if_pos rfl, Scalar.nonneg_rat]
  rfl

/-- The size of a text in a font size that is not below zero. -/
theorem ofFactors_rat (charWidth usual : ℚ) (text : String) (family : Option String)
    {fontSize : ℚ} (hsize : 0 ≤ fontSize) (own : Option ℚ) :
    ofFactors charWidth usual text ⟨family, fontSize, own⟩ =
      { width := longest (Text.textLines text.toList) * fontSize * charWidth
        height := (Text.textLines text.toList).length * fontSize * lineFactor usual own
        lineCount := (Text.textLines text.toList).length
        lineHeight := lineFactor usual own } := by
  rw [ofFactors_eq, sup_eq_left.mpr hsize]

end DiagramScene.Measurer
