import Mathlib
import DiagramScene.Dsl.Compile
import DiagramScene.Proofs.Text.Measure

/-!
# The two sizes of a text

A document gives a text room by its lines in the one reading, and a drawing measures it by its lines
in the other one.  The longest line is the same in both (`longest_lines`), and so is the number of
lines unless the text ends in a newline, which opens one more line in a drawing.

The main statement is `textSize_eq_default`: it compares the sizes in exact arithmetic.
-/

namespace DiagramScene.Dsl

open Measurer (longest longest_append)

/-! ### Lines -/

/-- A newline at the end of a text ends its last line in the one reading, and opens an empty one in
the other. -/
theorem lines_of_getLast? {cs : List Char} (hnewline : cs.getLast? = some '\n') :
    Text.lines cs ≠ [] ∧ Text.textLines cs = Text.lines cs ++ [[]] := by
  obtain ⟨before, rfl⟩ := List.getLast?_eq_some_iff.mp hnewline
  have hlines : Text.lines (before ++ ['\n']) = Text.textLines before := by
    rw [Text.lines_append_newline]
    exact List.append_nil _
  rw [hlines]
  exact ⟨Text.textLines_ne_nil before, Text.textLines_append_newline before []⟩

/-- The longest line is equally long in both readings. -/
theorem longest_lines {cs : List Char} (hreturn : cs.getLast? ≠ some '\r') :
    longest (Text.lines cs) = longest (Text.textLines cs) := by
  by_cases hnewline : cs.getLast? = some '\n'
  · rw [(lines_of_getLast? hnewline).2, longest_append]
    exact (Nat.max_zero _).symm
  · by_cases hne : cs = []
    · rw [hne]
      rfl
    · rw [Text.lines_eq_textLines hne hnewline hreturn]

/-- Without a newline at the end a text has as many lines in both readings, if the empty text is
given one. -/
theorem max_length_lines {cs : List Char} (hnewline : cs.getLast? ≠ some '\n')
    (hreturn : cs.getLast? ≠ some '\r') :
    max (Text.lines cs).length 1 = (Text.textLines cs).length := by
  by_cases hne : cs = []
  · rw [hne]
    rfl
  · rw [Text.lines_eq_textLines hne hnewline hreturn]
    exact max_eq_left (List.length_pos_iff.mpr (Text.textLines_ne_nil cs))

/-- With a newline at the end there is one line less in the one reading. -/
theorem max_length_lines_add_one {cs : List Char} (hnewline : cs.getLast? = some '\n') :
    max (Text.lines cs).length 1 + 1 = (Text.textLines cs).length := by
  obtain ⟨hne, hlines⟩ := lines_of_getLast? hnewline
  have hone : 1 ≤ (Text.lines cs).length := List.length_pos_iff.mpr hne
  rw [max_eq_left hone, hlines, List.length_append, List.length_singleton]

/-! ### Sizes -/

/-- In exact arithmetic, the size of a text in a document is that of its lines, and twice the room
around it. -/
theorem textSize_rat (text : String) (fontSize lineHeight padding : ℚ) :
    textSize text fontSize lineHeight padding =
      (longest (Text.lines text.toList) * fontSize * 0.6 + 2 * padding,
        (max (Text.lines text.toList).length 1 : Nat) * fontSize * lineHeight + 2 * padding) := by
  unfold textSize
  rw [Scalar.two_rat, mul_comm padding 2]
  rfl

/-- A document gives a text the size that it has in a drawing, and the room around it on both sides.
Only a newline at the end makes the height less, by that of one line. -/
theorem textSize_eq_default (text : String) (family : Option String) {fontSize lineHeight : ℚ}
    (padding : ℚ) (hsize : 0 ≤ fontSize) (hline : 0 < lineHeight)
    (hreturn : text.toList.getLast? ≠ some '\r') :
    let size := Measurer.default text ⟨family, fontSize, some lineHeight⟩
    (text.toList.getLast? ≠ some '\n' → textSize text fontSize lineHeight padding =
        (size.width + 2 * padding, size.height + 2 * padding)) ∧
      (text.toList.getLast? = some '\n' → textSize text fontSize lineHeight padding =
        (size.width + 2 * padding, size.height - fontSize * lineHeight + 2 * padding)) := by
  intro size
  have hmeasured : size = _ := Measurer.ofFactors_rat _ _ text family hsize (some lineHeight)
  rw [hmeasured, textSize_rat, Measurer.lineFactor_of_pos _ hline, longest_lines hreturn]
  constructor
  · intro hnewline
    rw [max_length_lines hnewline hreturn]
    rfl
  · intro hnewline
    rw [← max_length_lines_add_one hnewline]
    refine Prod.ext rfl ?_
    push_cast
    ring

/-- A text of two lines has the same size with and without a newline at its end in a document, while
a drawing gives it one line more. -/
theorem textSize_note :
    textSize "note\r\nb" (20 : ℚ) (5 / 4) 6 = (60, 62) ∧
      textSize "note\r\nb\r\n" (20 : ℚ) (5 / 4) 6 = (60, 62) ∧
      (Measurer.default "note\r\nb" ⟨none, (20 : ℚ), some (5 / 4)⟩).height = 50 ∧
      (Measurer.default "note\r\nb\r\n" ⟨none, (20 : ℚ), some (5 / 4)⟩).height = 75 := by
  have hsize : (0 : ℚ) ≤ 20 := by norm_num
  have hline : (0 : ℚ) < 5 / 4 := by norm_num
  have hopen := (textSize_eq_default "note\r\nb" none 6 hsize hline (by decide)).1 (by decide)
  have hended := (textSize_eq_default "note\r\nb\r\n" none 6 hsize hline (by decide)).2 (by decide)
  rw [hopen, hended]
  decide +kernel

end DiagramScene.Dsl
