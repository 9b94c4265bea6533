import DiagramScene.Proofs.Geometry.Made

/-!
# Boxes of floating point numbers

A floating point number may be infinite or no number at all, and sums of finite ones may overflow.
None of this gets into a box.  Reading a primitive from attributes leaves finite numbers only
(`allFinite_ofAttributes`), and `Box.of`, out of which every box comes, drops what is not finite or
below zero (`isSound_of`).  So boxes are sound whatever the numbers of a primitive are, and whatever
a measurer says about its texts.  The main statement is `allFinite_ofAttributes_and_isSound`.
-/

namespace DiagramScene

/-! ### Numbers -/

namespace Scalar

/-- A number that is below another one is not above it. -/
theorem float_le_of_lt {x y : Float} (h : x < y) : x ≤ y := by
  have hlt : x.toModel.unpack.lt y.toModel.unpack = true := of_decide_eq_true h
  rw [Float.Model.UnpackedFloat.lt, beq_iff_eq] at hlt
  have hle : x.toModel.unpack.le y.toModel.unpack = true := by
    rw [Float.Model.UnpackedFloat.le, hlt]
    rfl
  exact decide_eq_true hle

/-- What is made finite is finite. -/
theorem isFinite_finiteOrZero (x : Float) : (finiteOrZero x).isFinite = true := by
  unfold finiteOrZero
  split
  · assumption
  · rfl

/-- A number that is made not negative is itself, and above zero, or zero. -/
theorem nonneg_cases (x : Float) : 0.0 < x ∧ nonneg x = x ∨ nonneg x = 0.0 := by
  unfold nonneg max
  by_cases h : 0.0 < x
  · exact .inl ⟨h, if_pos (decide_eq_true h)⟩
  · exact .inr (if_neg fun hlt => h (of_decide_eq_true hlt))

/-- What is made not negative is not negative, even if it was no number. -/
theorem zero_le_nonneg (x : Float) : 0.0 ≤ nonneg x := by
  rcases nonneg_cases x with ⟨hpos, hx⟩ | hzero
  · rw [hx]
    exact float_le_of_lt hpos
  · rw [hzero]
    decide

/-- A finite number stays finite when it is made not negative. -/
theorem isFinite_nonneg {x : Float} (h : x.isFinite = true) : (nonneg x).isFinite = true := by
  rcases nonneg_cases x with ⟨-, hx⟩ | hzero
  · rw [hx, h]
  · rw [hzero]
    rfl

end Scalar

/-! ### Boxes -/

namespace Box

/-- All numbers of the box are finite, and no side of it is negative. -/
structure IsSound (b : Box Float) : Prop where
  x : b.x.isFinite = true
  y : b.y.isFinite = true
  width : b.width.isFinite = true
  height : b.height.isFinite = true
  width_nonneg : 0.0 ≤ b.width
  height_nonneg : 0.0 ≤ b.height

/-- A box that is made of any numbers is sound. -/
theorem isSound_of (x y width height : Float) : (of x y width height).IsSound where
  x := Scalar.isFinite_finiteOrZero x
  y := Scalar.isFinite_finiteOrZero y
  width := Scalar.isFinite_nonneg (Scalar.isFinite_finiteOrZero width)
  height := Scalar.isFinite_nonneg (Scalar.isFinite_finiteOrZero height)
  width_nonneg := Scalar.zero_le_nonneg _
  height_nonneg := Scalar.zero_le_nonneg _

/-- A box that is made is sound. -/
theorem IsMade.isSound {b : Box Float} (h : b.IsMade) : b.IsSound := by
  obtain ⟨x, y, width, height, rfl⟩ := h
  exact isSound_of x y width height

end Box

/-! ### Primitives -/

namespace Primitive

mutual

/-- All numbers of a primitive and of the primitives inside of it. -/
def numbers {α : Type} : Primitive α → List α
  | text x y _ fontSize lineHeight => [x, y, fontSize] ++ lineHeight.toList
  | rect x y width height | image x y width height => [x, y, width, height]
  | circle cx cy r => [cx, cy, r]
  | ellipse cx cy rx ry => [cx, cy, rx, ry]
  | line x1 y1 x2 y2 => [x1, y1, x2, y2]
  | polyline points => points.flatMap fun p => [p.x, p.y]
  | group children => numbersOf children
  | unknown _ => []

/-- All numbers of some primitives. -/
def numbersOf {α : Type} : List (Primitive α) → List α
  | [] => []
  | p :: ps => numbers p ++ numbersOf ps

end

/-- All numbers are finite. -/
def AllFinite (xs : List Float) : Prop := ∀ x ∈ xs, x.isFinite = true

/-- A number that is only taken if it is finite. -/
theorem isFinite_of_bind {o : Option Float} {x : Float}
    (h : (o.bind fun y => if y.isFinite then some y else none) = some x) : x.isFinite = true := by
  obtain ⟨y, -, hy⟩ := Option.bind_eq_some_iff.mp h
  obtain ⟨hfinite, hsame⟩ := Option.ite_none_right_eq_some.mp hy
  exact Option.some.inj hsame ▸ hfinite

/-- The number of an attribute is finite. -/
theorem isFinite_of_numberAttribute? {attrs : Members} {key : String} {x : Float}
    (h : numberAttribute? attrs key = some x) : x.isFinite = true := by
  obtain ⟨value, -, hvalue⟩ := Option.bind_eq_some_iff.mp h
  cases value with
  | num n => exact isFinite_of_bind (o := some n.toFloat) hvalue
  | str s => exact isFinite_of_bind hvalue
  | null | bool _ | arr _ | obj _ => cases hvalue

/-- The number of an attribute, or zero if there is none. -/
theorem isFinite_numberAttribute_getD (attrs : Members) (key : String) :
    ((numberAttribute? attrs key).getD 0.0).isFinite = true := by
  cases h : numberAttribute? attrs key with
  | none => rfl
  | some x => exact isFinite_of_numberAttribute? h

/-- The font size of a text is that of one of its attributes, or the usual one. -/
theorem isFinite_fontSize (attrs : Members) (key key' : String) :
    (((numberAttribute? attrs key).or (numberAttribute? attrs key')).getD
      TextStyle.defaultFontSize).isFinite = true := by
  cases h : numberAttribute? attrs key with
  | some x => exact isFinite_of_numberAttribute? h
  | none =>
    cases h' : numberAttribute? attrs key' with
    | none => rfl
    | some x => exact isFinite_of_numberAttribute? h'

/-- The coordinates of a point are finite. -/
theorem isFinite_of_pointOf? {value : Json} {p : Point Float} (h : pointOf? value = some p) :
    p.x.isFinite = true ∧ p.y.isFinite = true := by
  unfold pointOf? at h
  split at h
  · simp only [Option.bind_eq_bind, Option.bind_eq_some_iff, Option.some.injEq] at h
    obtain ⟨x, _, y, _, rfl⟩ := h
    exact ⟨Scalar.isFinite_finiteOrZero x, Scalar.isFinite_finiteOrZero y⟩
  · simp only [Option.bind_eq_bind, Option.bind_eq_some_iff, Option.some.injEq] at h
    obtain ⟨x, _, y, _, rfl⟩ := h
    exact ⟨Scalar.isFinite_finiteOrZero x, Scalar.isFinite_finiteOrZero y⟩
  · cases h

/-- A polyline through the points that can be read of some values has finite numbers. -/
theorem allFinite_polyline (values : List Json) :
    AllFinite (polyline (values.filterMap pointOf?)).numbers := by
  intro x hx
  rw [numbers] at hx
  obtain ⟨p, hp, hx⟩ := List.mem_flatMap.mp hx
  obtain ⟨value, -, hvalue⟩ := List.mem_filterMap.mp hp
  simp only [List.mem_cons, List.not_mem_nil, or_false] at hx
  rcases hx with rfl | rfl
  · exact (isFinite_of_pointOf? hvalue).1
  · exact (isFinite_of_pointOf? hvalue).2

/-- A text with finite numbers, of which the line height may be missing. -/
theorem allFinite_text {x y fontSize : Float} {lineHeight : Option Float} (content : String)
    (hx : x.isFinite = true) (hy : y.isFinite = true) (hsize : fontSize.isFinite = true)
    (hheight : ∀ h, lineHeight = some h → h.isFinite = true) :
    AllFinite (text x y content fontSize lineHeight).numbers := by
  intro z hz
  rw [numbers] at hz
  rcases List.mem_append.mp hz with hz | hz
  · simp only [List.mem_cons, List.not_mem_nil, or_false] at hz
    rcases hz with rfl | rfl | rfl
    · exact hx
    · exact hy
    · exact hsize
  · exact hheight z (Option.mem_toList.mp hz)

/-- The numbers of a primitive of any kind are finite if those of its children are. -/
theorem allFinite_build (kind : String) (attrs : Members) {children : List (Primitive Float)}
    (h : AllFinite (numbersOf children)) : AllFinite (build kind attrs children).numbers := by
  have hnumber := isFinite_numberAttribute_getD attrs
  have hgroup : AllFinite (group children).numbers := by rwa [numbers]
  unfold build
  dsimp only
  -- one case for each name of a kind, some of which have two
  split
  · exact allFinite_text _ (hnumber "x") (hnumber "y") (isFinite_fontSize attrs _ _)
      fun _ hheight => isFinite_of_numberAttribute? hheight
  · simp [AllFinite, numbers, hnumber]
  · simp [AllFinite, numbers, hnumber]
  · simp [AllFinite, numbers, hnumber]
  · simp [AllFinite, numbers, hnumber]
  · simp [AllFinite, numbers, hnumber]
  · simp [AllFinite, numbers, hnumber]
  · simp [AllFinite, numbers, hnumber]
  · exact allFinite_polyline _
  · exact allFinite_polyline _
  · exact hgroup
  · exact hgroup
  · simp [AllFinite, numbers]

mutual

/-- The numbers of the children of a primitive are finite. -/
theorem allFinite_childrenOf : ∀ attrs : List (String × Json),
    AllFinite (numbersOf (childrenOf attrs))
  | [] => by simp [childrenOf, numbersOf, AllFinite]
  | (key, value) :: attrs => by
    rw [childrenOf]
    split
    · exact allFinite_itemsOf value
    · exact allFinite_childrenOf attrs

/-- The numbers of the primitives in an array are finite. -/
theorem allFinite_itemsOf : ∀ value : Json, AllFinite (numbersOf (itemsOf value))
  | .arr values => by
    rw [itemsOf]
    exact allFinite_listOf values
  | .null | .bool _ | .num _ | .str _ | .obj _ => by simp [itemsOf, numbersOf, AllFinite]

/-- The numbers of the primitives in a list are finite. -/
theorem allFinite_listOf : ∀ values : List Json, AllFinite (numbersOf (listOf values))
  | [] => by simp [listOf, numbersOf, AllFinite]
  | .obj attrs :: values => by
    have hfirst := allFinite_build (textAttribute attrs "kind") attrs (allFinite_childrenOf attrs)
    have hrest := allFinite_listOf values
    rw [listOf, numbersOf]
    intro x hx
    rcases List.mem_append.mp hx with hx | hx
    · exact hfirst x hx
    · exact hrest x hx
  | .null :: values | .bool _ :: values | .num _ :: values | .str _ :: values
  | .arr _ :: values => by simpa only [listOf] using allFinite_listOf values

end

/-- The numbers of a primitive that is read from attributes are finite. -/
theorem allFinite_ofAttributes (kind : String) (attrs : Members) :
    AllFinite (ofAttributes kind attrs).numbers :=
  allFinite_build kind attrs (allFinite_childrenOf attrs)

/-- All numbers of a primitive that is read from attributes are finite.  The box of any primitive,
and the box around the elements of a scene, is sound, whatever its numbers are and whatever the
measurer says about its texts. -/
theorem allFinite_ofAttributes_and_isSound (kind : String) (attrs : Members)
    (measurer : Measurer Float) (p : Primitive Float) (elements : List (Element Float)) :
    (∀ x ∈ (ofAttributes kind attrs).numbers, x.isFinite = true) ∧
      (∀ b, p.box? measurer = some b → b.IsSound) ∧ (p.box measurer).IsSound ∧
      (Svg.contentBounds measurer elements).IsSound :=
  ⟨allFinite_ofAttributes kind attrs, fun b hb => (isMade_box? measurer p b hb).isSound,
    (isMade_box measurer p).isSound, (Svg.isMade_contentBounds measurer elements).isSound⟩

/-- A measurer whose sizes are no numbers or infinite. -/
def hostileMeasurer : Measurer Float := fun _ _ => ⟨0.0 / 0.0, 1.0 / 0.0, 1, 0.0 / 0.0⟩

/-- A group of a rectangle whose right edge overflows, a circle at infinity, and a group around a
text at no place. -/
def hostileGroup : Primitive Float :=
  .group [.rect 1e308 0.0 1e308 (-1.0), .circle (1.0 / 0.0) 0.0 1.0,
    .group [.text (0.0 / 0.0) 0.0 "a" (1.0 / 0.0) none]]

/-- The box of such a group is sound. -/
theorem isSound_box?_hostileGroup :
    ∃ b, hostileGroup.box? hostileMeasurer = some b ∧ b.IsSound := by
  have hresult :=
    allFinite_ofAttributes_and_isSound "group" [] hostileMeasurer hostileGroup []
  have hsome : (hostileGroup.box? hostileMeasurer).isSome = true := by
    decide +kernel
  obtain ⟨b, hb⟩ := Option.isSome_iff_exists.mp hsome
  exact ⟨b, hb, hresult.2.1 b hb⟩

end Primitive

end DiagramScene
