import Mathlib
import DiagramScene.Proofs.Svg.Bounds

/-!
# What the area of a drawing covers

The area of a drawing is made of the boxes of its elements, while the outlines of the elements are
computed on their own.  In exact arithmetic the box of an element covers the vertices of its outline
(`exists_box_covering`), so the area does, too, unless the element overhangs its box.  This is the
case for diamonds, which are drawn to the left of their place or above it if a side is negative,
while their box ends there, and for images that are flipped about the middle of a negative side.

The main statement is `covers_vertices_iff`: an outline is shown as a whole in every drawing exactly
when its element does not overhang.
-/

namespace DiagramScene

/-! ### Points in boxes -/

/-- The point lies in the box or on its edge. -/
structure Box.Covers (b : Box ℚ) (p : Point ℚ) : Prop where
  x_mem : p.x ∈ Set.Icc b.x b.maxX
  y_mem : p.y ∈ Set.Icc b.y b.maxY

namespace Box

/-- A box covers the points of the boxes within it. -/
theorem Covers.of_le {a b : Box ℚ} {p : Point ℚ} (h : a.Covers p) (hle : a ≤ b) : b.Covers p where
  x_mem := Set.Icc_subset_Icc hle.1 hle.2.2.1 h.x_mem
  y_mem := Set.Icc_subset_Icc hle.2.1 hle.2.2.2 h.y_mem

/-- A box covers the points whose coordinates lie between its edges. -/
theorem covers_of_iff {x y width height : ℚ} {p : Point ℚ} :
    (of x y width height).Covers p ↔
      p.x ∈ Set.Icc x (x + width ⊔ 0) ∧ p.y ∈ Set.Icc y (y + height ⊔ 0) := by
  rw [of_eq]
  exact ⟨fun h => ⟨h.x_mem, h.y_mem⟩, fun h => ⟨h.1, h.2⟩⟩

/-- The lower corner of points lies below all of them. -/
theorem foldl_lowerCorner_le (p : Point ℚ) (ps : List (Point ℚ)) :
    ∀ q ∈ p :: ps, (ps.foldl lowerCorner p).x ≤ q.x ∧ (ps.foldl lowerCorner p).y ≤ q.y := by
  induction ps generalizing p with
  | nil => simp
  | cons r ps ih =>
    have hcorner : lowerCorner p r = ⟨p.x ⊓ r.x, p.y ⊓ r.y⟩ := by
      simp [lowerCorner, min_def]
    obtain ⟨hlow, hrest⟩ := List.forall_mem_cons.mp (ih (lowerCorner p r))
    rw [hcorner] at hlow
    rw [List.foldl_cons, List.forall_mem_cons, List.forall_mem_cons, hcorner]
    rw [hcorner] at hrest
    exact ⟨⟨hlow.1.trans inf_le_left, hlow.2.trans inf_le_left⟩,
      ⟨hlow.1.trans inf_le_right, hlow.2.trans inf_le_right⟩, hrest⟩

/-- The upper corner of points lies above all of them. -/
theorem le_foldl_upperCorner (p : Point ℚ) (ps : List (Point ℚ)) :
    ∀ q ∈ p :: ps, q.x ≤ (ps.foldl upperCorner p).x ∧ q.y ≤ (ps.foldl upperCorner p).y := by
  induction ps generalizing p with
  | nil => simp
  | cons r ps ih =>
    have hcorner : upperCorner p r = ⟨r.x ⊔ p.x, r.y ⊔ p.y⟩ := by
      simp [upperCorner, max_def]
    obtain ⟨hhigh, hrest⟩ := List.forall_mem_cons.mp (ih (upperCorner p r))
    rw [hcorner] at hhigh hrest
    rw [List.foldl_cons, List.forall_mem_cons, List.forall_mem_cons, hcorner]
    exact ⟨⟨le_sup_right.trans hhigh.1, le_sup_right.trans hhigh.2⟩,
      ⟨le_sup_left.trans hhigh.1, le_sup_left.trans hhigh.2⟩, hrest⟩

/-- The box of points covers them. -/
theorem covers_ofPoints? {ps : List (Point ℚ)} (hne : ps ≠ []) :
    ∃ b, ofPoints? ps = some b ∧ ∀ q ∈ ps, b.Covers q := by
  obtain ⟨p, ps, rfl⟩ := List.exists_cons_of_ne_nil hne
  refine ⟨_, rfl, fun q hq => ?_⟩
  obtain ⟨hleft, htop⟩ := foldl_lowerCorner_le p ps q hq
  obtain ⟨hright, hbottom⟩ := le_foldl_upperCorner p ps q hq
  have hx : q.x ≤ (ps.foldl lowerCorner p).x + ((ps.foldl upperCorner p).x -
      (ps.foldl lowerCorner p).x) ⊔ 0 := hright.trans (sub_le_iff_le_add'.mp le_sup_left)
  have hy : q.y ≤ (ps.foldl lowerCorner p).y + ((ps.foldl upperCorner p).y -
      (ps.foldl lowerCorner p).y) ⊔ 0 := hbottom.trans (sub_le_iff_le_add'.mp le_sup_left)
  exact covers_of_iff.mpr ⟨⟨hleft, hx⟩, ⟨htop, hy⟩⟩

end Box

namespace Svg

/-! ### Vertices -/

/-- The points of a step of a path. -/
def PathStep.points : PathStep ℚ → List (Point ℚ)
  | .move p => [p]
  | .line p => [p]
  | .curve control₁ control₂ p => [control₁, control₂, p]

/-- The vertices of an outline; of an ellipse its extreme points. -/
def Outline.vertices : Outline ℚ → List (Point ℚ)
  | .rect x y width height _ => [⟨x, y⟩, ⟨x + width, y⟩, ⟨x, y + height⟩, ⟨x + width, y + height⟩]
  | .polygon points => points
  | .ellipse cx cy rx ry => [⟨cx - rx, cy⟩, ⟨cx + rx, cy⟩, ⟨cx, cy - ry⟩, ⟨cx, cy + ry⟩]
  | .path steps => steps.flatMap PathStep.points

/-- Where a point of an image is shown when the image is flipped: each coordinate keeps its distance
from the middle and changes its side by the sign of the scale. -/
def flipped (e : Element ℚ) (scale : ℚ × ℚ) (p : Point ℚ) : Point ℚ :=
  if isFlipped scale then
    let center := middle e
    ⟨center.x + Scalar.sign scale.1 * (p.x - center.x),
      center.y + Scalar.sign scale.2 * (p.y - center.y)⟩
  else p

/-- The vertices of the outline of an element as they are drawn before the element is turned.  Those
of an image are where it is drawn once its file is there. -/
def drawnVertices (e : Element ℚ) : List (Point ℚ) :=
  let vertices := (outline? e).elim [] Outline.vertices
  match e.kind with
  | .image picture => vertices.map (flipped e picture.scale)
  | _ => vertices

/-- The element has an outline without curves, or an ellipse for its outline.  Lines of fewer than
two points are not drawn. -/
def IsOutlined (e : Element ℚ) : Prop :=
  match e.kind with
  | .rectangle | .diamond | .ellipse | .image _ => True
  | .frame _ | .magicFrame _ | .embeddable | .iframe => True
  | .line path | .arrow path => e.roundness = none ∧ 2 ≤ path.points.length
  | .freedraw _ | .text _ | .other _ => False

/-- The outline of the element reaches over the box of the element. -/
def Overhangs (e : Element ℚ) : Prop :=
  match e.kind with
  | .diamond => e.width < 0 ∨ e.height < 0
  | .image picture =>
    (e.width < 0 ∧ picture.scale.1 < 0) ∨ (e.height < 0 ∧ picture.scale.2 < 0)
  | _ => False

/-! ### Boxes of elements -/

/-- The middle of a side that is not negative lies on it, and so do its ends. -/
theorem mem_side (x : ℚ) {w : ℚ} (h : 0 ≤ w) :
    x ∈ Set.Icc x (x + w ⊔ 0) ∧ x + w / 2 ∈ Set.Icc x (x + w ⊔ 0) ∧
      x + w ∈ Set.Icc x (x + w ⊔ 0) := by
  rw [sup_eq_left.mpr h]
  refine ⟨⟨le_rfl, ?_⟩, ⟨?_, ?_⟩, ⟨?_, le_rfl⟩⟩
  · linarith
  · linarith
  · linarith
  · linarith

/-- The ends of a side that is cut off at zero lie on it. -/
theorem mem_cutSide (x w : ℚ) :
    x ∈ Set.Icc x (x + w ⊔ 0) ∧ x + w ⊔ 0 ∈ Set.Icc x (x + w ⊔ 0) := by
  have hle : x ≤ x + w ⊔ 0 := le_add_of_nonneg_right le_sup_right
  exact ⟨⟨le_rfl, hle⟩, ⟨hle, le_rfl⟩⟩

/-- The box of the place and the size of an element. -/
def placeBox (e : Element ℚ) : Box ℚ := Box.of e.x e.y e.width e.height

/-- The box of an element covers the corners of its rectangle. -/
theorem placeBox_covers_rectOutline (e : Element ℚ) (radius : ℚ) :
    ∀ p ∈ (rectOutline e radius).vertices, (placeBox e).Covers p := by
  obtain ⟨hleft, hright⟩ := mem_cutSide e.x e.width
  obtain ⟨htop, hbottom⟩ := mem_cutSide e.y e.height
  simp only [rectOutline, Outline.vertices, placeBox, Box.covers_of_iff, Scalar.nonneg_rat,
    List.forall_mem_cons]
  exact ⟨⟨hleft, htop⟩, ⟨hright, htop⟩, ⟨hleft, hbottom⟩, ⟨hright, hbottom⟩, nofun⟩

/-- A coordinate of a side stays on it when the side is turned about its middle, unless the side is
negative. -/
theorem mem_turnedSide {x w scale v : ℚ} (h : ¬ (w < 0 ∧ scale < 0))
    (hv : v ∈ Set.Icc x (x + w ⊔ 0)) :
    x + w / 2.0 + Scalar.sign scale * (v - (x + w / 2.0)) ∈ Set.Icc x (x + w ⊔ 0) := by
  rw [Scalar.two_rat]
  change x + w / 2 + (if scale < 0 then -1 else 1) * (v - (x + w / 2)) ∈ _
  by_cases hscale : scale < 0
  · have hw : 0 ≤ w := not_lt.mp fun hw => h ⟨hw, hscale⟩
    rw [sup_eq_left.mpr hw] at hv ⊢
    rw [if_pos hscale]
    constructor
    · linarith [hv.2]
    · linarith [hv.1]
  · rw [if_neg hscale, one_mul, add_sub_cancel]
    exact hv

/-- The box of an image that does not overhang covers the flipped places of its points. -/
theorem placeBox_covers_flipped {e : Element ℚ} {scale : ℚ × ℚ}
    (hx : ¬ (e.width < 0 ∧ scale.1 < 0)) (hy : ¬ (e.height < 0 ∧ scale.2 < 0)) {p : Point ℚ}
    (h : (placeBox e).Covers p) : (placeBox e).Covers (flipped e scale p) := by
  unfold flipped
  split
  · rw [placeBox, Box.covers_of_iff] at h ⊢
    exact ⟨mem_turnedSide hx h.1, mem_turnedSide hy h.2⟩
  · exact h

/-- The box of a diamond without negative sides covers its corners. -/
theorem placeBox_covers_diamond {e : Element ℚ} (hwidth : 0 ≤ e.width) (hheight : 0 ≤ e.height) :
    ∀ p ∈ [(⟨e.x + e.width / 2, e.y⟩ : Point ℚ), ⟨e.x + e.width, e.y + e.height / 2⟩,
      ⟨e.x + e.width / 2, e.y + e.height⟩, ⟨e.x, e.y + e.height / 2⟩], (placeBox e).Covers p := by
  obtain ⟨hleft, hmiddle, hright⟩ := mem_side e.x hwidth
  obtain ⟨htop, hmiddle', hbottom⟩ := mem_side e.y hheight
  simp only [placeBox, Box.covers_of_iff, List.forall_mem_cons]
  exact ⟨⟨hmiddle, htop⟩, ⟨hright, hmiddle'⟩, ⟨hmiddle, hbottom⟩, ⟨hleft, hmiddle'⟩, nofun⟩

/-- The middle of an interval and its ends lie in it. -/
theorem mem_radius (c r : ℚ) :
    c - |r| ∈ Set.Icc (c - |r|) (c - |r| + 2 * |r| ⊔ 0) ∧
      c ∈ Set.Icc (c - |r|) (c - |r| + 2 * |r| ⊔ 0) ∧
      c + |r| ∈ Set.Icc (c - |r|) (c - |r| + 2 * |r| ⊔ 0) := by
  have hmiddle : c - |r| + 2 * |r| / 2 = c := by ring
  have hend : c - |r| + 2 * |r| = c + |r| := by ring
  have hside := mem_side (c - |r|) (mul_nonneg zero_le_two (abs_nonneg r))
  rwa [hmiddle, hend] at hside

/-- The vertices of a straight path are its points. -/
theorem flatMap_points_straightPath (points : List (Point ℚ)) :
    (straightPath points).flatMap PathStep.points = points := by
  cases points with
  | nil => rfl
  | cons p ps =>
    rw [straightPath, List.flatMap_cons, List.flatMap_map]
    simp [PathStep.points]

/-- The box of points in scene coordinates covers a straight path through them. -/
theorem exists_box_covering_straightPath (measurer : Measurer ℚ) (e : Element ℚ)
    (points : List (ℚ × ℚ)) :
    ∃ b, Primitive.box? measurer (.polyline (Element.absolutePoints e.x e.y points)) = some b ∧
      ∀ p ∈ (straightPath (finitePoints e points)).flatMap PathStep.points, b.Covers p := by
  have hne : Element.absolutePoints e.x e.y points ≠ [] := by
    cases points <;> simp [Element.absolutePoints]
  obtain ⟨b, hbox, hcovers⟩ := Box.covers_ofPoints? hne
  refine ⟨b, by rw [Primitive.box?, hbox], fun p hp => hcovers p ?_⟩
  rw [flatMap_points_straightPath] at hp
  cases points with
  | nil => exact nomatch hp
  | cons q points => simpa [Element.absolutePoints, finitePoints] using hp

/-- The box of an element that does not overhang covers the vertices of its outline. -/
theorem exists_box_covering (measurer : Measurer ℚ) {e : Element ℚ} (hkind : IsOutlined e)
    (h : ¬ Overhangs e) :
    ∃ b, e.primitive.box? measurer = some b ∧ ∀ p ∈ drawnVertices e, b.Covers p := by
  unfold IsOutlined at hkind
  unfold Overhangs at h
  unfold Element.primitive drawnVertices outline?
  cases hk : e.kind with
  | rectangle | embeddable | iframe =>
    exact ⟨placeBox e, by rw [Primitive.box?]; rfl, placeBox_covers_rectOutline e (rectRadius e)⟩
  | frame title | magicFrame title =>
    exact ⟨placeBox e, by rw [Primitive.box?]; rfl, placeBox_covers_rectOutline e frameRadius⟩
  | image picture =>
    rw [hk] at h
    obtain ⟨hx, hy⟩ := not_or.mp h
    refine ⟨placeBox e, by rw [Primitive.box?]; rfl, fun p hp => ?_⟩
    obtain ⟨q, hq, rfl⟩ := List.mem_map.mp hp
    exact placeBox_covers_flipped hx hy (placeBox_covers_rectOutline e 0.0 q hq)
  | diamond =>
    rw [hk] at h
    obtain ⟨hwidth, hheight⟩ := not_or.mp h
    refine ⟨placeBox e, by rw [Primitive.box?]; rfl, ?_⟩
    simp only [Scalar.two_rat]
    exact placeBox_covers_diamond (not_lt.mp hwidth) (not_lt.mp hheight)
  | ellipse =>
    obtain ⟨hleft, hmiddle, hright⟩ := mem_radius (e.x + e.width / 2) (e.width / 2)
    obtain ⟨htop, hmiddle', hbottom⟩ := mem_radius (e.y + e.height / 2) (e.height / 2)
    refine ⟨_, by rw [Primitive.box?], ?_⟩
    simp only [Option.elim_some, Outline.vertices, Box.covers_of_iff, Scalar.two_rat,
      Scalar.abs_rat, Scalar.finiteOrZero_rat, List.forall_mem_cons]
    exact ⟨⟨hleft, hmiddle'⟩, ⟨hright, hmiddle'⟩, ⟨hmiddle, htop⟩, ⟨hmiddle, hbottom⟩, nofun⟩
  | line path | arrow path =>
    rw [hk] at hkind
    have hsteps : linearSteps e (finitePoints e path.points) =
        straightPath (finitePoints e path.points) := by
      rw [linearSteps, hkind.1]
      rfl
    obtain ⟨b, hbox, hcovers⟩ := exists_box_covering_straightPath measurer e path.points
    refine ⟨b, hbox, ?_⟩
    change ∀ p ∈ (linearSteps e (finitePoints e path.points)).flatMap PathStep.points, b.Covers p
    rwa [hsteps]
  | freedraw stroke | text content | other name =>
    rw [hk] at hkind
    exact hkind.elim

/-! ### The area of a drawing -/

/-- The bounds of a drawing lie within its area. -/
theorem contentBounds_le_viewport (measurer : Measurer ℚ) {padding : ℚ} (h : 0 ≤ padding)
    (es : List (Element ℚ)) : contentBounds measurer es ≤ viewport measurer padding es := by
  have hside (x w : ℚ) : x + w ≤ x - padding + (w + 2 * padding) ⊔ 0 := by
    have hle : w + 2 * padding ≤ (w + 2 * padding) ⊔ 0 := le_sup_left
    linarith
  rw [viewport, Box.of_eq, Scalar.two_rat, Box.le_def]
  exact ⟨sub_le_self _ h, sub_le_self _ h, hside _ _, hside _ _⟩

/-- The area of a drawing covers what the box of an element that it shows covers. -/
theorem viewport_covers (measurer : Measurer ℚ) {padding : ℚ} (h : 0 ≤ padding)
    {es : List (Element ℚ)} {e : Element ℚ} (he : e ∈ es) (hshown : e.isDeleted = false) {b : Box ℚ}
    (hbox : e.primitive.box? measurer = some b) {p : Point ℚ} (hp : b.Covers p) :
    (viewport measurer padding es).Covers p := by
  have hmem : b ∈ shownBoxes measurer es := ⟨e, he, hshown, hbox⟩
  have hle : b ≤ contentBounds measurer es := (isLUB_contentBounds measurer ⟨b, hmem⟩).1 hmem
  exact hp.of_le (hle.trans (contentBounds_le_viewport measurer h es))

/-- The area of a drawing of one element with no room around it is the box of the element. -/
theorem viewport_singleton (measurer : Measurer ℚ) {e : Element ℚ} (hshown : e.isDeleted = false)
    {b : Box ℚ} (hbox : e.primitive.box? measurer = some b) : viewport measurer 0 [e] = b := by
  have hproper := Primitive.isProper_box? measurer _ b hbox
  have hbounds : contentBounds measurer [e] = b := by
    simp [contentBounds, hshown, hbox, Box.unionAll]
  rw [viewport, hbounds, Box.of_eq, mul_zero, sub_zero, sub_zero, add_zero, add_zero,
    sup_eq_left.mpr hproper.width, sup_eq_left.mpr hproper.height]

/-- The start of a negative side comes to lie before the side when that is turned about its
middle. -/
theorem turnedSide_lt {x w scale : ℚ} (hw : w < 0) (hscale : scale < 0) :
    x + w / 2.0 + Scalar.sign scale * (x - (x + w / 2.0)) < x := by
  rw [Scalar.two_rat]
  change x + w / 2 + (if scale < 0 then -1 else 1) * (x - (x + w / 2)) < x
  rw [if_pos hscale]
  linarith

/-- The box of an element that overhangs does not cover a vertex of its outline. -/
theorem exists_vertex_not_covered (measurer : Measurer ℚ) {e : Element ℚ} (h : Overhangs e) :
    e.primitive.box? measurer = some (placeBox e) ∧
      ∃ p ∈ drawnVertices e, p.x < (placeBox e).x ∨ p.y < (placeBox e).y := by
  unfold Overhangs at h
  unfold Element.primitive drawnVertices outline?
  cases hk : e.kind with
  | diamond =>
    rw [hk] at h
    refine ⟨by rw [Primitive.box?]; rfl, ?_⟩
    rcases h with hwidth | hheight
    · refine ⟨⟨e.x + e.width, e.y + e.height / 2.0⟩, .tail _ (.head _), .inl ?_⟩
      exact add_lt_of_neg_right e.x hwidth
    · refine ⟨⟨e.x + e.width / 2.0, e.y + e.height⟩, .tail _ (.tail _ (.head _)), .inr ?_⟩
      exact add_lt_of_neg_right e.y hheight
  | image picture =>
    rw [hk] at h
    refine ⟨by rw [Primitive.box?]; rfl, flipped e picture.scale ⟨e.x, e.y⟩,
      List.mem_map_of_mem (.head _), ?_⟩
    rcases h with ⟨hwidth, hscale⟩ | ⟨hheight, hscale⟩
    · rw [flipped, if_pos (by simp [isFlipped, hscale])]
      exact .inl (turnedSide_lt hwidth hscale)
    · rw [flipped, if_pos (by simp [isFlipped, hscale])]
      exact .inr (turnedSide_lt hheight hscale)
  | _ =>
    rw [hk] at h
    exact h.elim

/-- The outline of an element is shown as a whole in every drawing exactly when the element does not
overhang. -/
theorem covers_vertices_iff (measurer : Measurer ℚ) (e : Element ℚ) (hkind : IsOutlined e)
    (hshown : e.isDeleted = false) :
    (∀ es padding, e ∈ es → 0 ≤ padding →
      ∀ p ∈ drawnVertices e, (viewport measurer padding es).Covers p) ↔ ¬ Overhangs e := by
  constructor
  · intro hcovers hover
    obtain ⟨hbox, p, hp, hbefore⟩ := exists_vertex_not_covered measurer hover
    have hcovered := hcovers [e] 0 List.mem_cons_self le_rfl p hp
    rw [viewport_singleton measurer hshown hbox] at hcovered
    rcases hbefore with hx | hy
    · exact hx.not_ge hcovered.x_mem.1
    · exact hy.not_ge hcovered.y_mem.1
  · intro hover es padding he hpadding p hp
    obtain ⟨b, hbox, hcovers⟩ := exists_box_covering measurer hkind hover
    exact viewport_covers measurer hpadding he hshown hbox (hcovers p hp)

/-! ### Negative sides -/

/-- An ellipse that lies to the left of its place and above it. -/
def upperLeftEllipse : Element ℚ :=
  { Element.ofKind .ellipse with id := "a", width := -100, height := -50 }

/-- Both ways of taking the radii of an ellipse disregard the signs of its sides. -/
theorem covers_upperLeftEllipse :
    IsOutlined upperLeftEllipse ∧ upperLeftEllipse.isDeleted = false ∧
      ∀ es padding, upperLeftEllipse ∈ es → 0 ≤ padding →
        ∀ p ∈ drawnVertices upperLeftEllipse, (viewport Measurer.default padding es).Covers p :=
  ⟨trivial, rfl, (covers_vertices_iff Measurer.default upperLeftEllipse trivial rfl).mpr id⟩

/-- A diamond that is drawn to the left of its place. -/
def leftDiamond : Element ℚ :=
  { Element.ofKind .diamond with id := "a", width := -100, height := 50 }

/-- The drawing of the diamond alone has no room for its left half. -/
theorem not_covers_leftDiamond :
    ¬ ∀ (measurer : Measurer ℚ) (padding : ℚ) (es : List (Element ℚ)) (e : Element ℚ),
      0 ≤ padding → e ∈ es → IsOutlined e → e.isDeleted = false → e.angle = 0 →
        ∀ p ∈ drawnVertices e, (viewport measurer padding es).Covers p := by
  intro h
  have hangle : leftDiamond.angle = 0 := Scalar.zero_rat
  have harea : viewport Measurer.default 10 [leftDiamond] = ⟨-10, -10, 20, 70⟩ := by
    decide +kernel
  have hcorners : drawnVertices leftDiamond = [⟨-50, 0⟩, ⟨-100, 25⟩, ⟨-50, 50⟩, ⟨0, 25⟩] := by
    decide +kernel
  have hleft : (⟨-100, 25⟩ : Point ℚ) ∈ drawnVertices leftDiamond := by
    rw [hcorners]
    exact .tail _ (.head _)
  have hcovered := h Measurer.default 10 [leftDiamond] leftDiamond (by norm_num)
    List.mem_cons_self trivial rfl hangle _ hleft
  rw [harea] at hcovered
  exact absurd hcovered.x_mem.1 (by norm_num)

end Svg

end DiagramScene
