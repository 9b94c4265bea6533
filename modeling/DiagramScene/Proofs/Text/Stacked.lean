import Mathlib
import DiagramScene.Proofs.Text.Measure

/-!
# Texts one below the other

A newline between two texts puts the lines of the second one below those of the first one.  The
whole has the lines of both, so in exact arithmetic its height is the sum of their heights.  Its
width is that of the longest line of either text.  That is the greater one of their widths as long
as a longer line is not narrower, which depends on the sign of the width of a character
(`monotone_width`, `antitone_width`).

The main statement is `ofFactors_append_newline`.
-/

namespace DiagramScene

namespace Measurer

section Widths

variable {fontSize charWidth : ℚ}

/-- A longer line is not narrower than a shorter one, if the width of a character is not below
zero. -/
theorem monotone_width (hsize : 0 ≤ fontSize) (hwidth : 0 ≤ charWidth) :
    Monotone fun length : ℕ => length * fontSize * charWidth := by
  intro m n hle
  dsimp only
  gcongr

/-- A longer line is not wider than a shorter one, if the width of a character is not above zero. -/
theorem antitone_width (hsize : 0 ≤ fontSize) (hwidth : charWidth ≤ 0) :
    Antitone fun length : ℕ => length * fontSize * charWidth := by
  intro m n hle
  have hlonger : (m : ℚ) * fontSize ≤ n * fontSize := by gcongr
  exact mul_le_mul_of_nonpos_right hlonger hwidth

end Widths

/-- The height of a line is not below zero if the usual one is not. -/
theorem lineFactor_nonneg {usual : ℚ} (husual : 0 ≤ usual) (own : Option ℚ) :
    0 ≤ lineFactor usual own := by
  cases own with
  | none => exact husual
  | some own =>
    rcases lt_or_ge 0 own with hown | hown
    · rw [lineFactor_of_pos usual hown]
      exact hown.le
    · rw [lineFactor_of_nonpos usual hown]
      exact husual

/-- A text that is put together of two with a newline has the lines of the first one and then those
of the second one.  Their numbers and the heights add up.  The width is the greater one of the two
if the width of a character is not below zero, and the smaller one if it is not above.  Every text
has one line more than it has newlines, and no size is below zero if the factors are not. -/
theorem ofFactors_append_newline (charWidth usual : ℚ) (style : TextStyle ℚ) (a b : String) :
    let whole := a ++ "\n" ++ b
    let size := fun text => ofFactors charWidth usual text style
    Text.textLines whole.toList = Text.textLines a.toList ++ Text.textLines b.toList ∧
      (size whole).lineCount = (size a).lineCount + (size b).lineCount ∧
      (size whole).height = (size a).height + (size b).height ∧
      (0 ≤ charWidth → (size whole).width = max (size a).width (size b).width) ∧
      (charWidth ≤ 0 → (size whole).width = min (size a).width (size b).width) ∧
      (size a).lineCount = (Text.textLines a.toList).length ∧
      (size a).lineCount = a.toList.count '\n' + 1 ∧
      (0 ≤ charWidth → 0 ≤ usual → 0 ≤ (size a).width ∧ 0 ≤ (size a).height) := by
  intro whole size
  have hlines : Text.textLines whole.toList =
      Text.textLines a.toList ++ Text.textLines b.toList := by
    rw [← Text.textLines_append_newline]
    simp [whole]
  have hsize : ∀ text, size text = _ := fun text => ofFactors_eq charWidth usual text style
  have hfont : 0 ≤ style.fontSize ⊔ 0 := le_sup_right
  refine ⟨hlines, ?_, ?_, fun hwidth => ?_, fun hwidth => ?_, ?_, ?_, fun hwidth husual => ?_⟩
  · rw [hsize, hsize, hsize, hlines, List.length_append]
  · rw [hsize, hsize, hsize, hlines, List.length_append]
    push_cast
    ring
  · rw [hsize, hsize, hsize, hlines, longest_append]
    exact (monotone_width hfont hwidth).map_max
  · rw [hsize, hsize, hsize, hlines, longest_append]
    exact (antitone_width hfont hwidth).map_max
  · rw [hsize]
  · rw [hsize, Text.length_textLines]
  · have hfactor := lineFactor_nonneg husual style.lineHeight
    rw [hsize]
    constructor <;> positivity

/-- A carriage return before the newline between the texts belongs to neither of their lines, and
an empty text below has a line of its own. -/
theorem ofFactors_append_newline_returns :
    let size := ofFactors (3 / 5) (5 / 4) ("ab\r" ++ "\n" ++ "c\n") ⟨none, (10 : ℚ), some 2⟩
    size.width = 12 ∧ size.height = 60 := by
  intro size
  obtain ⟨-, -, hheight, hwidth, -⟩ :=
    ofFactors_append_newline (3 / 5) (5 / 4) ⟨none, 10, some 2⟩ "ab\r" "c\n"
  rw [hwidth (by norm_num), hheight]
  decide +kernel

/-- With characters of a width below zero the wider one of two texts is not as wide as the whole. -/
theorem width_ne_max_negativeFactor :
    (ofFactors (-1) (5 / 4) ("a" ++ "\n" ++ "bb") ⟨none, (16 : ℚ), none⟩).width ≠
      max (ofFactors (-1) (5 / 4) "a" ⟨none, (16 : ℚ), none⟩).width
        (ofFactors (-1) (5 / 4) "bb" ⟨none, (16 : ℚ), none⟩).width := by
  decide +kernel

end Measurer

end DiagramScene
