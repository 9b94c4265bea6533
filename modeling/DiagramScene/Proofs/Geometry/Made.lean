import DiagramScene.Svg.Outline

/-!
# How boxes are made

Whatever the numbers are, each box of a primitive and each box around others comes out of `Box.of`
(`isMade_box?`, `isMade_contentBounds`).  What holds of all boxes that are made in this way, such as
that no side of them is negative, need not be proved again for every kind of primitive.
-/

namespace DiagramScene

variable {α : Type} [Scalar α]

namespace Box

/-- The box was made of the coordinates of a corner and of a size. -/
def IsMade (b : Box α) : Prop := ∃ x y width height, b = of x y width height

theorem isMade_of (x y width height : α) : (of x y width height).IsMade :=
  ⟨x, y, width, height, rfl⟩

/-- A box without extent is made. -/
theorem isMade_zeroAt (x y : α) : (zeroAt x y).IsMade := isMade_of ..

/-- The union of two boxes is made. -/
theorem isMade_union (a b : Box α) : (union a b).IsMade := isMade_of ..

/-- A box that is made, united with others one after the other, is made. -/
theorem IsMade.foldl_union {a : Box α} (ha : a.IsMade) (bs : List (Box α)) :
    (bs.foldl union a).IsMade := by
  induction bs generalizing a with
  | nil => exact ha
  | cons b bs ih => exact ih (isMade_union a b)

/-- The union of boxes that are made is made. -/
theorem isMade_unionAll {bs : List (Box α)} (h : ∀ b ∈ bs, b.IsMade) {u : Box α}
    (hu : unionAll bs = some u) : u.IsMade := by
  cases bs with
  | nil => cases hu
  | cons b bs =>
    obtain rfl := Option.some.inj hu
    exact (h b List.mem_cons_self).foldl_union bs

/-- The box around points is made. -/
theorem isMade_ofPoints? {points : List (Point α)} {b : Box α} (h : ofPoints? points = some b) :
    b.IsMade := by
  cases points with
  | nil => cases h
  | cons p points =>
    obtain rfl := Option.some.inj h
    exact isMade_of ..

end Box

namespace Primitive

variable (measurer : Measurer α)

mutual

/-- The box of a primitive is made. -/
theorem isMade_box? : ∀ (p : Primitive α) (b : Box α), box? measurer p = some b → b.IsMade
  | .text x y content fontSize lineHeight, b, h => by
    rw [box?] at h
    dsimp only at h
    split at h
    · exact Option.some.inj h ▸ Box.isMade_zeroAt ..
    · exact Option.some.inj h ▸ Box.isMade_of ..
  | .rect x y width height, b, h => by
    rw [box?] at h
    exact Option.some.inj h ▸ Box.isMade_of ..
  | .image x y width height, b, h => by
    rw [box?] at h
    exact Option.some.inj h ▸ Box.isMade_of ..
  | .circle cx cy r, b, h => by
    rw [box?] at h
    exact Option.some.inj h ▸ Box.isMade_of ..
  | .ellipse cx cy rx ry, b, h => by
    rw [box?] at h
    exact Option.some.inj h ▸ Box.isMade_of ..
  | .line x1 y1 x2 y2, b, h => by
    rw [box?] at h
    exact Box.isMade_ofPoints? h
  | .polyline points, b, h => by
    rw [box?] at h
    exact Box.isMade_ofPoints? h
  | .group children, b, h => by
    rw [box?] at h
    exact Box.isMade_unionAll (isMade_boxes children) h
  | .unknown kind, b, h => by
    rw [box?] at h
    cases h

/-- The boxes of primitives are made. -/
theorem isMade_boxes : ∀ (ps : List (Primitive α)), ∀ b ∈ boxes measurer ps, b.IsMade
  | [], b, h => by
    rw [boxes] at h
    exact absurd h List.not_mem_nil
  | p :: ps, b, h => by
    rw [boxes] at h
    cases hp : box? measurer p with
    | none =>
      rw [hp] at h
      exact isMade_boxes ps b h
    | some first =>
      rw [hp] at h
      rcases List.mem_cons.mp h with rfl | h
      · exact isMade_box? p b hp
      · exact isMade_boxes ps b h

end

/-- A primitive that cannot be measured counts as a box that is made. -/
theorem isMade_box (p : Primitive α) : (p.box measurer).IsMade := by
  rw [box]
  cases hp : box? measurer p with
  | none => exact Box.isMade_zeroAt ..
  | some b => exact isMade_box? measurer p b hp

end Primitive

/-- The box around the elements of a scene is made. -/
theorem Svg.isMade_contentBounds (measurer : Measurer α) (elements : List (Element α)) :
    (contentBounds measurer elements).IsMade := by
  have hboxes : ∀ b ∈ (elements.filter fun e => !e.isDeleted).filterMap fun e =>
      e.primitive.box? measurer, b.IsMade := by
    intro b hb
    obtain ⟨e, _, hbox⟩ := List.mem_filterMap.mp hb
    exact Primitive.isMade_box? measurer e.primitive b hbox
  rw [contentBounds]
  cases hunion : Box.unionAll ((elements.filter fun e => !e.isDeleted).filterMap fun e =>
      e.primitive.box? measurer) with
  | none => exact Box.isMade_zeroAt ..
  | some u => exact Box.isMade_unionAll hboxes hunion

end DiagramScene
