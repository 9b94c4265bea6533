import Mathlib
import DiagramScene.Geometry.Primitive
import DiagramScene.Proofs.Geometry.Made
import DiagramScene.Proofs.Number.Exact

/-!
# Least boxes

In exact arithmetic a box lies within another if none of its edges lies outside, and boxes are
partially ordered by that.  All boxes that are made of primitives are proper: no side of them is
negative.  The union of proper boxes is their least upper bound (`leastAround_unionAll`).

A least upper bound depends on no more than the boxes that lie above all of the given ones.  Where
two sets agree in that they have the `SameHull`, and this relation is kept when the sets are united
with others.  So the box of a group stays the same when a group inside of it is replaced by that
group's children (`box?_group_flatten`), at whatever depth (`box?_group_leaves`).
-/

namespace DiagramScene

namespace Box

/-! ### Order -/

/-- A box lies within another if none of its edges lies outside. -/
instance : PartialOrder (Box ℚ) where
  le a b := b.x ≤ a.x ∧ b.y ≤ a.y ∧ a.maxX ≤ b.maxX ∧ a.maxY ≤ b.maxY
  le_refl a := ⟨le_rfl, le_rfl, le_rfl, le_rfl⟩
  le_trans a b c h h' :=
    ⟨h'.1.trans h.1, h'.2.1.trans h.2.1, h.2.2.1.trans h'.2.2.1, h.2.2.2.trans h'.2.2.2⟩
  le_antisymm a b h h' := by
    obtain ⟨ax, ay, aw, ah⟩ := a
    obtain ⟨bx, bY, bw, bh⟩ := b
    simp only [maxX, maxY] at h h'
    obtain rfl : ax = bx := le_antisymm h'.1 h.1
    obtain rfl : ay = bY := le_antisymm h'.2.1 h.2.1
    obtain rfl : aw = bw := by linarith
    obtain rfl : ah = bh := by linarith
    rfl

theorem le_def {a b : Box ℚ} :
    a ≤ b ↔ b.x ≤ a.x ∧ b.y ≤ a.y ∧ a.maxX ≤ b.maxX ∧ a.maxY ≤ b.maxY := Iff.rfl

/-- No side of the box is negative. -/
structure IsProper (b : Box ℚ) : Prop where
  width : 0 ≤ b.width
  height : 0 ≤ b.height

/-- The box of a corner and a size that may be negative. -/
theorem of_eq (x y width height : ℚ) : of x y width height = ⟨x, y, width ⊔ 0, height ⊔ 0⟩ := by
  simp [of]

/-- A box that is made of a corner and a size is proper. -/
theorem isProper_of (x y width height : ℚ) : (of x y width height).IsProper := by
  rw [of_eq]
  exact ⟨le_sup_right, le_sup_right⟩

/-- A box that is made is proper. -/
theorem IsMade.isProper {b : Box ℚ} (h : b.IsMade) : b.IsProper := by
  obtain ⟨x, y, width, height, rfl⟩ := h
  exact isProper_of x y width height

/-- The box without extent at the origin. -/
theorem zero_eq : (zero : Box ℚ) = ⟨0, 0, 0, 0⟩ := by
  simp [zero, zeroAt, of_eq]

/-! ### Unions -/

/-- A union is proper. -/
theorem isProper_union (a b : Box ℚ) : (union a b).IsProper := isProper_of ..

/-- The edges of the union of a proper box and another are the outer ones of their edges. -/
theorem union_eq {a : Box ℚ} (ha : a.IsProper) (b : Box ℚ) :
    union a b = ⟨a.x ⊓ b.x, a.y ⊓ b.y, a.maxX ⊔ b.maxX - a.x ⊓ b.x,
      a.maxY ⊔ b.maxY - a.y ⊓ b.y⟩ := by
  have hx : a.x ⊓ b.x ≤ a.maxX ⊔ b.maxX :=
    inf_le_left.trans ((le_add_of_nonneg_right ha.width).trans le_sup_left)
  have hy : a.y ⊓ b.y ≤ a.maxY ⊔ b.maxY :=
    inf_le_left.trans ((le_add_of_nonneg_right ha.height).trans le_sup_left)
  simp only [union, Scalar.min_rat, Scalar.max_rat, of_eq]
  rw [sup_eq_left.mpr (sub_nonneg.mpr hx), sup_eq_left.mpr (sub_nonneg.mpr hy)]

/-- The union of two boxes lies within exactly the boxes within which both lie. -/
theorem union_le_iff {a : Box ℚ} (ha : a.IsProper) (b c : Box ℚ) :
    union a b ≤ c ↔ a ≤ c ∧ b ≤ c := by
  rw [union_eq ha]
  simp only [le_def, maxX, maxY, add_sub_cancel, le_inf_iff, sup_le_iff]
  tauto

/-- A box united with others one after the other lies within exactly the boxes within which all of
them lie. -/
theorem foldl_union_le_iff {a : Box ℚ} (ha : a.IsProper) (bs : List (Box ℚ)) (c : Box ℚ) :
    bs.foldl union a ≤ c ↔ a ≤ c ∧ ∀ b ∈ bs, b ≤ c := by
  induction bs generalizing a with
  | nil => simp
  | cons b bs ih =>
    rw [List.foldl_cons, ih (isProper_union a b), union_le_iff ha, List.forall_mem_cons, and_assoc]

/-- Only the empty list has no union. -/
theorem unionAll_eq_none_iff {bs : List (Box ℚ)} : unionAll bs = none ↔ bs = [] := by
  cases bs with
  | nil => simp [unionAll]
  | cons b bs => simp [unionAll]

/-- The union of proper boxes lies within exactly the boxes within which all of them lie. -/
theorem unionAll_le_iff {bs : List (Box ℚ)} (h : ∀ b ∈ bs, b.IsProper) {u : Box ℚ}
    (hu : unionAll bs = some u) (c : Box ℚ) : u ≤ c ↔ ∀ b ∈ bs, b ≤ c := by
  cases bs with
  | nil => exact nomatch hu
  | cons b bs =>
    obtain rfl := Option.some.inj hu
    rw [foldl_union_le_iff (h b List.mem_cons_self), List.forall_mem_cons]

/-! ### Least boxes around sets -/

/-- The outcome is the least box around the boxes of a set, or no box if the set is empty. -/
structure LeastAround (bs : Set (Box ℚ)) (outcome : Option (Box ℚ)) : Prop where
  eq_none_iff : outcome = none ↔ bs = ∅
  isLUB : ∀ u, outcome = some u → IsLUB bs u

/-- The union of proper boxes is the least box around them. -/
theorem leastAround_unionAll {bs : List (Box ℚ)} (h : ∀ b ∈ bs, b.IsProper) :
    LeastAround {b | b ∈ bs} (unionAll bs) where
  eq_none_iff := by rw [unionAll_eq_none_iff, Set.eq_empty_iff_forall_notMem,
    List.eq_nil_iff_forall_not_mem]; rfl
  isLUB u hu := isLUB_iff_le_iff.mpr fun c => unionAll_le_iff h hu c

/-- The same boxes lie above all boxes of two sets, and both sets are empty or neither is. -/
structure SameHull (bs bs' : Set (Box ℚ)) : Prop where
  empty_iff : bs = ∅ ↔ bs' = ∅
  upperBounds_eq : upperBounds bs = upperBounds bs'

namespace SameHull

variable {bs bs' cs cs' : Set (Box ℚ)}

/-- A set has the same hull as itself. -/
theorem refl (bs : Set (Box ℚ)) : SameHull bs bs := ⟨Iff.rfl, rfl⟩

/-- The relation goes both ways. -/
theorem symm (h : SameHull bs bs') : SameHull bs' bs :=
  ⟨h.empty_iff.symm, h.upperBounds_eq.symm⟩

/-- Two sets that have the same hull as a third one. -/
theorem trans (h : SameHull bs bs') (h' : SameHull bs' cs) : SameHull bs cs :=
  ⟨h.empty_iff.trans h'.empty_iff, h.upperBounds_eq.trans h'.upperBounds_eq⟩

/-- Sets that are united with others. -/
theorem union (h : SameHull bs bs') (h' : SameHull cs cs') : SameHull (bs ∪ cs) (bs' ∪ cs') where
  empty_iff := by rw [Set.union_empty_iff, Set.union_empty_iff, h.empty_iff, h'.empty_iff]
  upperBounds_eq := by
    rw [upperBounds_union, upperBounds_union, h.upperBounds_eq, h'.upperBounds_eq]

end SameHull

namespace LeastAround

variable {bs bs' : Set (Box ℚ)} {outcome outcome' : Option (Box ℚ)}

/-- A box is the least one around itself. -/
theorem of_option (outcome : Option (Box ℚ)) : LeastAround {b | outcome = some b} outcome := by
  cases outcome with
  | none =>
    have hempty : {b : Box ℚ | none = some b} = ∅ := Set.eq_empty_of_forall_notMem nofun
    exact ⟨iff_of_true rfl hempty, nofun⟩
  | some u =>
    have hone : {b | some u = some b} = {u} := by
      ext b
      simp [eq_comm]
    rw [hone]
    refine ⟨iff_of_false nofun (Set.singleton_ne_empty u), ?_⟩
    rintro _ ⟨⟩
    exact isLUB_singleton

/-- The least box around a set has the same hull as the set. -/
theorem sameHull (h : LeastAround bs outcome) : SameHull {b | outcome = some b} bs where
  empty_iff := by rw [← (of_option outcome).eq_none_iff, h.eq_none_iff]
  upperBounds_eq := by
    cases outcome with
    | none => rw [h.eq_none_iff.mp rfl, (of_option none).eq_none_iff.mp rfl]
    | some u =>
      rw [((of_option (some u)).isLUB u rfl).upperBounds_eq, (h.isLUB u rfl).upperBounds_eq]

/-- Sets with the same hull have the same least box. -/
theorem congr (h : LeastAround bs outcome) (h' : LeastAround bs' outcome')
    (hhull : SameHull bs bs') : outcome = outcome' := by
  have hnone : outcome = none ↔ outcome' = none := by
    rw [h.eq_none_iff, h'.eq_none_iff, hhull.empty_iff]
  cases outcome with
  | none => exact (hnone.mp rfl).symm
  | some u =>
    cases outcome' with
    | none => exact hnone.mpr rfl
    | some u' =>
      have hu : IsLUB bs' u := by
        rw [IsLUB, ← hhull.upperBounds_eq]
        exact h.isLUB u rfl
      rw [hu.unique (h'.isLUB u' rfl)]

end LeastAround

end Box

/-! ### Primitives -/

namespace Primitive

variable (measurer : Measurer ℚ)

/-- The boxes of a list are those of its primitives that have one. -/
theorem boxes_eq_filterMap (ps : List (Primitive ℚ)) :
    boxes measurer ps = ps.filterMap (box? measurer) := by
  induction ps with
  | nil => rw [boxes, List.filterMap_nil]
  | cons p ps ih =>
    rw [boxes, List.filterMap_cons, ih]
    cases box? measurer p <;> rfl

/-- The box of a primitive is proper. -/
theorem isProper_box? (p : Primitive ℚ) (b : Box ℚ) (h : box? measurer p = some b) : b.IsProper :=
  (isMade_box? measurer p b h).isProper

/-- The boxes of primitives are proper. -/
theorem isProper_boxes (ps : List (Primitive ℚ)) : ∀ b ∈ boxes measurer ps, b.IsProper :=
  fun b hb => (isMade_boxes measurer ps b hb).isProper

/-! ### Groups -/

/-- The boxes of those of some primitives that have one. -/
def boxesOf (ps : List (Primitive ℚ)) : Set (Box ℚ) :=
  {b | ∃ p ∈ ps, box? measurer p = some b}

/-- There is no box where no primitive has one. -/
theorem boxesOf_eq_empty_iff {ps : List (Primitive ℚ)} :
    boxesOf measurer ps = ∅ ↔ ∀ p ∈ ps, box? measurer p = none := by
  rw [Set.eq_empty_iff_forall_notMem]
  constructor
  · intro h p hp
    exact Option.eq_none_iff_forall_ne_some.mpr fun b hb => h b ⟨p, hp, hb⟩
  · rintro h b ⟨p, hp, hb⟩
    exact nomatch (h p hp).symm.trans hb

/-- The boxes of a primitive and of others. -/
theorem boxesOf_cons (p : Primitive ℚ) (ps : List (Primitive ℚ)) :
    boxesOf measurer (p :: ps) = {b | box? measurer p = some b} ∪ boxesOf measurer ps := by
  ext b
  simp [boxesOf]

/-- The boxes of primitives and of others. -/
theorem boxesOf_append (ps qs : List (Primitive ℚ)) :
    boxesOf measurer (ps ++ qs) = boxesOf measurer ps ∪ boxesOf measurer qs := by
  ext b
  simp [boxesOf, or_and_right, exists_or]

/-- The box of a group is the least one around the boxes of its children. -/
theorem leastAround_group (children : List (Primitive ℚ)) :
    Box.LeastAround (boxesOf measurer children) (box? measurer (.group children)) := by
  have hboxes : {b | b ∈ boxes measurer children} = boxesOf measurer children := by
    ext b
    rw [Set.mem_ofPred_eq, boxes_eq_filterMap, List.mem_filterMap]
    rfl
  rw [box?, ← hboxes]
  exact Box.leastAround_unionAll (isProper_boxes measurer children)

/-- Groups whose children have boxes with the same hull have the same box. -/
theorem box?_group_congr {ps qs : List (Primitive ℚ)}
    (h : Box.SameHull (boxesOf measurer ps) (boxesOf measurer qs)) :
    box? measurer (.group ps) = box? measurer (.group qs) :=
  (leastAround_group measurer ps).congr (leastAround_group measurer qs) h

/-- The order of the children does not count. -/
theorem box?_group_perm {ps qs : List (Primitive ℚ)} (h : ps.Perm qs) :
    box? measurer (.group ps) = box? measurer (.group qs) := by
  have hboxes : boxesOf measurer ps = boxesOf measurer qs := by
    ext b
    simp only [boxesOf, Set.mem_ofPred_eq, h.mem_iff]
  exact box?_group_congr measurer (hboxes ▸ .refl _)

/-- Children without a box do not count. -/
theorem box?_group_filter (ps : List (Primitive ℚ)) :
    box? measurer (.group (ps.filter fun p => (box? measurer p).isSome)) =
      box? measurer (.group ps) := by
  have hboxes : boxesOf measurer (ps.filter fun p => (box? measurer p).isSome) =
      boxesOf measurer ps := by
    ext b
    constructor
    · rintro ⟨p, hp, hb⟩
      exact ⟨p, List.mem_of_mem_filter hp, hb⟩
    · rintro ⟨p, hp, hb⟩
      exact ⟨p, List.mem_filter.mpr ⟨hp, by rw [hb]; rfl⟩, hb⟩
  exact box?_group_congr measurer (hboxes ▸ .refl _)

/-- A group among the children counts as its children. -/
theorem box?_group_flatten (before inner after : List (Primitive ℚ)) :
    box? measurer (.group (before ++ .group inner :: after)) =
      box? measurer (.group (before ++ inner ++ after)) := by
  refine box?_group_congr measurer ?_
  rw [boxesOf_append, boxesOf_cons, List.append_assoc, boxesOf_append, boxesOf_append]
  exact (Box.SameHull.refl _).union ((leastAround_group measurer inner).sameHull.union (.refl _))

mutual

/-- The primitives of which a primitive is made, without any groups. -/
def leaves : Primitive ℚ → List (Primitive ℚ)
  | .group children => leavesOf children
  | p => [p]

/-- The primitives of which some primitives are made, without any groups. -/
def leavesOf : List (Primitive ℚ) → List (Primitive ℚ)
  | [] => []
  | p :: ps => leaves p ++ leavesOf ps

end

/-- The boxes of a single primitive. -/
theorem boxesOf_singleton (p : Primitive ℚ) :
    boxesOf measurer [p] = {b | box? measurer p = some b} := by
  ext b
  simp [boxesOf]

mutual

/-- The boxes of the leaves have the same hull as the box of the whole. -/
theorem sameHull_leaves : ∀ p : Primitive ℚ,
    Box.SameHull (boxesOf measurer p.leaves) {b | box? measurer p = some b}
  | .group children => by
    rw [leaves]
    exact (sameHull_leavesOf children).trans (leastAround_group measurer children).sameHull.symm
  | .text .. | .rect .. | .image .. | .circle .. | .ellipse .. | .line .. | .polyline ..
  | .unknown .. => by
    rw [leaves, boxesOf_singleton]
    · exact .refl _
    · exact nofun

/-- The boxes of the leaves of a list have the same hull as the boxes of the list. -/
theorem sameHull_leavesOf : ∀ ps : List (Primitive ℚ),
    Box.SameHull (boxesOf measurer (leavesOf ps)) (boxesOf measurer ps)
  | [] => by
    rw [leavesOf]
    exact .refl _
  | p :: ps => by
    rw [leavesOf, boxesOf_append, boxesOf_cons]
    exact (sameHull_leaves p).union (sameHull_leavesOf ps)

end

/-- A primitive has the box of the group of its leaves. -/
theorem box?_group_leaves (p : Primitive ℚ) :
    box? measurer (.group p.leaves) = box? measurer p :=
  (leastAround_group measurer p.leaves).congr (.of_option _) (sameHull_leaves measurer p)

end Primitive

end DiagramScene
