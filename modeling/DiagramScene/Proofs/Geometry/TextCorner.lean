import Mathlib
import DiagramScene.Element.Basic
import DiagramScene.Proofs.Geometry.LeastBox
import DiagramScene.Proofs.Text.Measure

/-!
# The place of a text without a size

An element stands at its upper left corner, a primitive text on its base line.  So the geometry of
a text element without a size stands lower than the element, by the height that its lines are stated
to have, and the box of that stands higher again, by the height that is measured
(`box?_primitive_unsized`).  The two heights are the same where the text has lines of a height above
zero.  A line height that is not above zero is measured as the usual one, and an empty text is
stated to have one line, but measured without any.

The main statement is `box?_corner_iff`: it says for which texts the box is back at the place of the
element.
-/

namespace DiagramScene.Element

/-- Neither side of the element is above zero. -/
structure IsUnsized (e : Element ℚ) : Prop where
  width : e.width ≤ 0
  height : e.height ≤ 0

/-- The height that the lines of a text are stated to have. -/
def statedHeight (t : TextContent ℚ) : ℚ := t.lines.length * t.fontSize * t.lineHeight

/-- The height that is measured of a text; none if the text is empty. -/
def measuredHeight (t : TextContent ℚ) : ℚ :=
  if t.text = "" then 0
  else t.lines.length * t.fontSize *
    Measurer.lineFactor Measurer.defaultLineHeight (some t.lineHeight)

variable {e : Element ℚ} {t : TextContent ℚ}

/-- A text without a size stands lower than its element, by the height of its lines. -/
theorem primitive_unsized (hkind : e.kind = .text t) (h : e.IsUnsized) :
    e.primitive = .text e.x (e.y + statedHeight t) t.text t.fontSize (some t.lineHeight) := by
  unfold primitive
  rw [hkind]
  dsimp only
  rw [Scalar.lt_rat, Scalar.lt_rat, Scalar.zero_rat, decide_eq_false h.width.not_gt,
    decide_eq_false h.height.not_gt]
  rfl

/-- The box of a text without a size is off the place of its element by the difference of the two
heights. -/
theorem box?_primitive_unsized (hkind : e.kind = .text t) (h : e.IsUnsized)
    (hsize : 0 < t.fontSize) : ∃ b, e.primitive.box? Measurer.default = some b ∧
      b.x = e.x ∧ b.y = e.y + (statedHeight t - measuredHeight t) := by
  rw [primitive_unsized hkind h, Primitive.box?]
  by_cases hempty : t.text = ""
  · refine ⟨_, if_pos (by rw [hempty]; rfl), rfl, ?_⟩
    rw [measuredHeight, if_pos hempty, sub_zero]
    rfl
  · have hmeasured := Measurer.ofFactors_rat (0.6 : ℚ) Measurer.defaultLineHeight t.text none
      hsize.le (some t.lineHeight)
    refine ⟨_, if_neg (by simpa using hempty), rfl, ?_⟩
    rw [measuredHeight, if_neg hempty, ← add_sub_assoc]
    exact congrArg (fun m => e.y + statedHeight t - m.height) hmeasured

/-- The two heights of a text are the same where its lines have a height above zero, and where it is
empty and its lines have none. -/
theorem statedHeight_eq_measuredHeight_iff (hsize : 0 < t.fontSize) :
    statedHeight t = measuredHeight t ↔
      t.text ≠ "" ∧ 0 < t.lineHeight ∨ t.text = "" ∧ t.lineHeight = 0 := by
  have hcount : (0 : ℚ) < t.lines.length * t.fontSize := by
    have hlines : 0 < t.lines.length := List.length_pos_iff.mpr (Text.textLines_ne_nil _)
    positivity
  unfold statedHeight measuredHeight
  by_cases hempty : t.text = ""
  · simp [hempty, hcount.ne']
  · rw [if_neg hempty, mul_right_inj' hcount.ne']
    rcases lt_or_ge 0 t.lineHeight with hline | hline
    · simp [hempty, hline, Measurer.lineFactor_of_pos _ hline]
    · have husual : (0 : ℚ) < Measurer.defaultLineHeight := by norm_num [Measurer.defaultLineHeight]
      rw [Measurer.lineFactor_of_nonpos _ hline]
      simp [hempty, hline.not_gt, (hline.trans_lt husual).ne]

/-- The box that is estimated for a text without a size stands at the place of its element exactly
if the text has lines of a height above zero, or if it is empty and its lines have no height. -/
theorem box?_corner_iff (hkind : e.kind = .text t) (hwidth : e.width ≤ 0) (hheight : e.height ≤ 0)
    (hsize : 0 < t.fontSize) : ∃ b, e.primitive.box? Measurer.default = some b ∧ b.x = e.x ∧
      (b.y = e.y ↔ t.text ≠ "" ∧ 0 < t.lineHeight ∨ t.text = "" ∧ t.lineHeight = 0) := by
  obtain ⟨b, hbox, hx, hy⟩ := box?_primitive_unsized hkind ⟨hwidth, hheight⟩ hsize
  refine ⟨b, hbox, hx, ?_⟩
  rw [hy, add_eq_left, sub_eq_zero, statedHeight_eq_measuredHeight_iff hsize]

/-- A text element at a place. -/
def noteAt (x y : ℚ) (text : String) : Element ℚ :=
  { Element.ofKind (.text { TextContent.empty with text := text }) with x := x, y := y }

/-- The box of a note stands where the note does. -/
theorem box?_corner_note : ∃ b, (noteAt 10 20 "a\nb").primitive.box? Measurer.default = some b ∧
    b.x = 10 ∧ b.y = 20 := by
  have hsize : (0 : ℚ) < 20.0 := by norm_num
  have hzero : (0.0 : ℚ) ≤ 0 := by norm_num
  obtain ⟨b, hbox, hx, hy⟩ := box?_corner_iff (e := noteAt 10 20 "a\nb") rfl hzero hzero hsize
  refine ⟨b, hbox, hx, hy.mpr (.inl ⟨by decide, ?_⟩)⟩
  exact (by norm_num : (0 : ℚ) < 1.25)

/-- The box of an empty text stands one line below the text. -/
theorem not_corner_emptyText : ¬ ∀ (e : Element ℚ) (t : TextContent ℚ), e.kind = .text t →
    e.width ≤ 0 → e.height ≤ 0 → 0 < t.fontSize →
      ∃ b, e.primitive.box? Measurer.default = some b ∧ b.x = e.x ∧ b.y = e.y := by
  intro h
  have hsize : (0 : ℚ) < 20.0 := by norm_num
  have hzero : (0.0 : ℚ) ≤ 0 := by norm_num
  obtain ⟨b, hbox, -, hy⟩ := h (noteAt 10 20 "") _ rfl hzero hzero hsize
  have hbelow : (noteAt 10 20 "").primitive.box? Measurer.default = some ⟨10, 45, 0, 0⟩ := by
    decide +kernel
  rw [hbelow] at hbox
  obtain rfl := Option.some.inj hbox
  exact absurd hy (by decide +kernel)

end DiagramScene.Element
