import Mathlib
import DiagramScene.Proofs.Geometry.LeastBox
import DiagramScene.Svg.Outline

/-!
# The bounds of a drawing

In exact arithmetic, the bounds of a drawing are the least box around the boxes of the elements that
it shows, so one more element never makes them smaller.  Together with the laws of groups this is
the main statement, `leastAround_group_and_contentBounds`.
-/

namespace DiagramScene.Svg

open scoped List

variable (measurer : Measurer ℚ)

/-- The boxes of those elements that are not deleted and have one. -/
def shownBoxes (es : List (Element ℚ)) : Set (Box ℚ) :=
  {b | ∃ e ∈ es, e.isDeleted = false ∧ e.primitive.box? measurer = some b}

/-- The boxes of more elements are more boxes. -/
theorem shownBoxes_mono {es es' : List (Element ℚ)} (h : es ⊆ es') :
    shownBoxes measurer es ⊆ shownBoxes measurer es' := by
  rintro b ⟨e, he, hshown⟩
  exact ⟨e, h he, hshown⟩

/-- The bounds of a drawing are the least box around the shown boxes, where there is one. -/
theorem exists_leastAround_shownBoxes (es : List (Element ℚ)) :
    ∃ outcome, Box.LeastAround (shownBoxes measurer es) outcome ∧
      contentBounds measurer es = outcome.getD Box.zero := by
  let bs := (es.filter fun e => !e.isDeleted).filterMap fun e => e.primitive.box? measurer
  have hmem : {b | b ∈ bs} = shownBoxes measurer es := by
    ext b
    simp [bs, shownBoxes, and_assoc]
  have hproper : ∀ b ∈ bs, b.IsProper := by
    intro b hb
    obtain ⟨e, -, hbox⟩ := List.mem_filterMap.mp hb
    exact Primitive.isProper_box? measurer _ b hbox
  refine ⟨Box.unionAll bs, ?_, rfl⟩
  rw [← hmem]
  exact Box.leastAround_unionAll hproper

/-- A drawing that shows no boxes has the box without extent at the origin for its bounds. -/
theorem contentBounds_of_shownBoxes_eq_empty {es : List (Element ℚ)}
    (h : shownBoxes measurer es = ∅) : contentBounds measurer es = ⟨0, 0, 0, 0⟩ := by
  obtain ⟨outcome, hleast, hbounds⟩ := exists_leastAround_shownBoxes measurer es
  rw [hbounds, hleast.eq_none_iff.mpr h, Option.getD_none, Box.zero_eq]

/-- The bounds of a drawing are the least upper bound of the boxes that it shows. -/
theorem isLUB_contentBounds {es : List (Element ℚ)} (h : (shownBoxes measurer es).Nonempty) :
    IsLUB (shownBoxes measurer es) (contentBounds measurer es) := by
  obtain ⟨outcome, hleast, hbounds⟩ := exists_leastAround_shownBoxes measurer es
  cases outcome with
  | none => exact absurd (hleast.eq_none_iff.mp rfl) h.ne_empty
  | some u =>
    rw [hbounds]
    exact hleast.isLUB u rfl

/-- The bounds of a drawing lie within those of a drawing with more elements. -/
theorem contentBounds_mono {es es' : List (Element ℚ)} (h : (shownBoxes measurer es).Nonempty)
    (hsub : es ⊆ es') : contentBounds measurer es ≤ contentBounds measurer es' := by
  have hmore := shownBoxes_mono measurer hsub
  exact (isLUB_contentBounds measurer h).mono (isLUB_contentBounds measurer (h.mono hmore)) hmore

open Primitive in
/-- The box of a group is the least one around the boxes of its children.  It depends neither on the
order of the children, nor on how they are grouped, nor on children without a box.  The bounds of a
drawing are the least box around the boxes that it shows; they are the box without extent at the
origin if there are none, and one more element never makes them smaller otherwise. -/
theorem leastAround_group_and_contentBounds :
    (∀ children,
      (box? measurer (.group children) = none ↔ ∀ p ∈ children, box? measurer p = none) ∧
        ∀ u, box? measurer (.group children) = some u →
          IsLUB {b | ∃ p ∈ children, box? measurer p = some b} u) ∧
      (∀ children children', children.Perm children' →
        box? measurer (.group children') = box? measurer (.group children)) ∧
      (∀ before inner after, box? measurer (.group (before ++ .group inner :: after)) =
        box? measurer (.group (before ++ inner ++ after))) ∧
      (∀ p, box? measurer (.group p.leaves) = box? measurer p) ∧
      (∀ children, box? measurer (.group (children.filter fun p => (box? measurer p).isSome)) =
        box? measurer (.group children)) ∧
      (∀ es, shownBoxes measurer es = ∅ → contentBounds measurer es = ⟨0, 0, 0, 0⟩) ∧
      (∀ es, (shownBoxes measurer es).Nonempty →
        IsLUB (shownBoxes measurer es) (contentBounds measurer es)) ∧
      ∀ before e after, (shownBoxes measurer (before ++ after)).Nonempty →
        contentBounds measurer (before ++ after) ≤
          contentBounds measurer (before ++ e :: after) := by
  refine ⟨fun children => ⟨?_, (leastAround_group measurer children).isLUB⟩,
    fun _ _ h => (box?_group_perm measurer h).symm, box?_group_flatten measurer,
    box?_group_leaves measurer, box?_group_filter measurer,
    fun _ => contentBounds_of_shownBoxes_eq_empty measurer, fun _ => isLUB_contentBounds measurer,
    fun before e after h => ?_⟩
  · rw [(leastAround_group measurer children).eq_none_iff, boxesOf_eq_empty_iff]
  · have hsub : before ++ after <+ before ++ e :: after :=
      (List.sublist_cons_self e after).append_left before
    exact contentBounds_mono measurer h hsub.subset

end DiagramScene.Svg
