import Mathlib
import DiagramScene.Proofs.Number.Exact
import DiagramScene.Svg.Outline

/-!
# Smooth paths

A smooth path is put together of curves.  Each of them looks up four points by their numbers: its
two ends, and the neighbours of these.  A number that goes past an end of the path stands for the
point at that end, so that every lookup gives a point (`exists_pointAt?`), and there is a curve from
each point but the last one to the next (`interpolates_smoothPath`).

At a point between two others one curve ends and the next one begins.  The control points on its two
sides are made with the same direction, one of them against it and one along it, so they lie
opposite to each other and the path has no corner.  At an end of the path the direction is that to
the only neighbour.  The main statement is `interpolates_and_isSmooth_smoothPath`.
-/

namespace DiagramScene.Svg

/-! ### Lookups -/

/-- A number is taken to a place in the list. -/
theorem clampedIndex_lt {count : Nat} (h : 0 < count) (i : Int) : clampedIndex count i < count := by
  unfold clampedIndex
  omega

/-- A number of the list stands for its own place. -/
theorem clampedIndex_natCast {count i : Nat} (h : i < count) : clampedIndex count i = i := by
  unfold clampedIndex
  omega

section Lookups

variable {α : Type} {points : List (Point α)}

/-- Whatever its number is, a point is found unless there are none. -/
theorem exists_pointAt? (h : points ≠ []) (i : Int) : ∃ p, pointAt? points i = some p :=
  ⟨_, List.getElem?_eq_getElem (clampedIndex_lt (List.length_pos_iff.mpr h) i)⟩

/-- A point is found at its own place. -/
theorem pointAt?_natCast {i : Nat} (h : i < points.length) :
    pointAt? points i = some points[i] := by
  rw [pointAt?, clampedIndex_natCast h, List.getElem?_eq_getElem h]

/-- The neighbour before a point, which for the first point is that point itself. -/
theorem pointAt?_sub_one {i : Nat} (h : i < points.length) :
    pointAt? points (i - 1) = points[i - 1]? := by
  have hplace : clampedIndex points.length (i - 1) = i - 1 := by
    unfold clampedIndex
    omega
  rw [pointAt?, hplace]

/-- The neighbour behind the end of a curve, which for the last curve is that end itself. -/
theorem pointAt?_add_two (i : Nat) :
    pointAt? points (i + 2) = points[min (i + 2) (points.length - 1)]? := by
  have hplace : clampedIndex points.length (i + 2) = min (i + 2) (points.length - 1) := by
    unfold clampedIndex
    omega
  rw [pointAt?, hplace]

end Lookups

/-! ### Curves -/

section Curves

variable {α : Type} [Scalar α] {points : List (Point α)}

/-- There is a curve from each point but the last one to the next point. -/
theorem exists_curve?_eq {i : Nat} {p q : Point α} (hp : points[i]? = some p)
    (hq : points[i + 1]? = some q) : ∃ before after, points[i - 1]? = some before ∧
      points[min (i + 2) (points.length - 1)]? = some after ∧
      curve? points i =
        some (.curve (alongDirection p before q) (againstDirection q p after) q) := by
  obtain ⟨hlt, rfl⟩ := List.getElem?_eq_some_iff.mp hp
  obtain ⟨hnext, rfl⟩ := List.getElem?_eq_some_iff.mp hq
  have hne : points ≠ [] := List.length_pos_iff.mp (by omega)
  obtain ⟨before, hbefore⟩ := exists_pointAt? hne (i - 1)
  obtain ⟨after, hafter⟩ := exists_pointAt? hne (i + 2)
  have hend : pointAt? points (i + 1) = some points[i + 1] := pointAt?_natCast hnext
  refine ⟨before, after, pointAt?_sub_one hlt ▸ hbefore, pointAt?_add_two i ▸ hafter, ?_⟩
  rw [curve?, hbefore, pointAt?_natCast hlt, hend, hafter]
  rfl

/-- No lookup of a path fails, so that none of its curves is left out. -/
theorem exists_curves (points : List (Point α)) : ∃ curves : List (PathStep α),
    (List.range (points.length - 1)).filterMap (curve? points) = curves ∧
      curves.length = points.length - 1 ∧
      ∀ i < points.length - 1, curves[i]? = curve? points i := by
  have hsome : ∀ i < points.length - 1, (curve? points i).isSome = true := by
    intro i hi
    obtain ⟨_, _, -, -, hcurve⟩ := exists_curve?_eq
      (List.getElem?_eq_getElem (l := points) (i := i) (by omega))
      (List.getElem?_eq_getElem (by omega))
    rw [hcurve]
    rfl
  generalize points.length - 1 = count at hsome
  induction count with
  | zero => exact ⟨[], rfl, rfl, fun i hi => absurd hi (Nat.not_lt_zero i)⟩
  | succ count ih =>
    obtain ⟨curves, hcurves, hlength, hget⟩ := ih fun i hi => hsome i (by omega)
    obtain ⟨last, hlast⟩ := Option.isSome_iff_exists.mp (hsome count (Nat.lt_succ_self count))
    refine ⟨curves ++ [last], ?_, ?_, fun i hi => ?_⟩
    · rw [List.range_succ, List.filterMap_append, hcurves, List.filterMap_cons, hlast,
        List.filterMap_nil]
    · rw [List.length_append, hlength, List.length_singleton]
    · rcases (Nat.lt_succ_iff_lt_or_eq.mp hi) with hlt | rfl
      · rw [List.getElem?_append_left (hlength.symm ▸ hlt), hget i hlt]
      · rw [List.getElem?_append_right hlength.le, hlength, Nat.sub_self, hlast]
        rfl

/-- A path of three points at least is its start and then the curves between its points. -/
theorem exists_smoothPath_eq (h : 3 ≤ points.length) : ∃ p curves,
    points[0]? = some p ∧ smoothPath points = .move p :: curves ∧
      curves.length = points.length - 1 ∧
      ∀ i < points.length - 1, curves[i]? = curve? points i := by
  obtain ⟨curves, hcurves, hlength, hget⟩ := exists_curves points
  match points, h with
  | p :: _ :: _ :: _, _ =>
    refine ⟨p, curves, rfl, ?_, hlength, hget⟩
    rw [smoothPath, hcurves]

/-- A path starts at the first of its points and runs from each point to the next one in a curve. -/
structure Interpolates (points : List (Point α)) (steps : List (PathStep α)) : Prop where
  start : steps[0]? = points[0]?.map .move
  length : steps.length = points.length
  curve : ∀ i p, points[i + 1]? = some p → ∃ c d, steps[i + 1]? = some (.curve c d p)

/-- A smooth path runs through all of its points. -/
theorem interpolates_smoothPath (h : 3 ≤ points.length) :
    Interpolates points (smoothPath points) := by
  obtain ⟨p, curves, hp, hpath, hlength, hget⟩ := exists_smoothPath_eq h
  rw [hpath]
  refine ⟨?_, ?_, fun i q hq => ?_⟩
  · rw [hp, List.getElem?_cons_zero, Option.map_some]
  · rw [List.length_cons, hlength]
    omega
  · obtain ⟨hlt, -⟩ := List.getElem?_eq_some_iff.mp hq
    obtain ⟨_, _, -, -, hcurve⟩ := exists_curve?_eq (List.getElem?_eq_getElem (by omega)) hq
    rw [List.getElem?_cons_succ, hget i (by omega), hcurve]
    exact ⟨_, _, rfl⟩

/-- A curve of a smooth path is that between two points that follow each other. -/
theorem exists_points_of_curve (h : 3 ≤ points.length) {i : Nat} {c d r : Point α}
    (hstep : (smoothPath points)[i]? = some (.curve c d r)) :
    ∃ j p before after, i = j + 1 ∧ points[j]? = some p ∧ points[j + 1]? = some r ∧
      points[j - 1]? = some before ∧ points[min (j + 2) (points.length - 1)]? = some after ∧
      c = alongDirection p before r ∧ d = againstDirection r p after := by
  obtain ⟨start, curves, -, hpath, hlength, hget⟩ := exists_smoothPath_eq h
  rw [hpath] at hstep
  cases i with
  | zero => cases hstep
  | succ j =>
    rw [List.getElem?_cons_succ] at hstep
    obtain ⟨hlt, -⟩ := List.getElem?_eq_some_iff.mp hstep
    have hp := List.getElem?_eq_getElem (l := points) (i := j) (by omega)
    have hq := List.getElem?_eq_getElem (l := points) (i := j + 1) (by omega)
    obtain ⟨before, after, hbefore, hafter, hcurve⟩ := exists_curve?_eq hp hq
    rw [hget j (by omega), hcurve] at hstep
    obtain ⟨rfl, rfl, rfl⟩ := PathStep.curve.inj (Option.some.inj hstep)
    exact ⟨j, _, before, after, rfl, hp, hq, hbefore, hafter, rfl, rfl⟩

end Curves

/-! ### Directions -/

/-- A third of the tension is a sixth. -/
theorem mul_tension_div_three (q : ℚ) : q * tension / (3.0 : ℚ) = q / 6 := by
  have htension : (tension : ℚ) = 1 / 2 := by
    change (0.5 : ℚ) = 1 / 2
    norm_num
  have hthree : (3.0 : ℚ) = 3 := by norm_num
  rw [htension, hthree]
  ring

theorem alongDirection_rat (p before after : Point ℚ) : alongDirection p before after =
    ⟨p.x + (after.x - before.x) / 6, p.y + (after.y - before.y) / 6⟩ := by
  rw [alongDirection, mul_tension_div_three, mul_tension_div_three]

theorem againstDirection_rat (p before after : Point ℚ) : againstDirection p before after =
    ⟨p.x - (after.x - before.x) / 6, p.y - (after.y - before.y) / 6⟩ := by
  rw [againstDirection, mul_tension_div_three, mul_tension_div_three]

/-- The point `p` lies in the middle between `c` and `d`. -/
def IsMiddle (p c d : Point ℚ) : Prop := c.x + d.x = 2 * p.x ∧ c.y + d.y = 2 * p.y

/-- The point `c` lies on the segment from `p` to `q`. -/
def OnSegment (p q c : Point ℚ) : Prop :=
  ∃ t : ℚ, 0 ≤ t ∧ t ≤ 1 ∧ c.x = p.x + t * (q.x - p.x) ∧ c.y = p.y + t * (q.y - p.y)

/-- The control points of a direction lie opposite to each other. -/
theorem isMiddle_direction (p before after : Point ℚ) :
    IsMiddle p (againstDirection p before after) (alongDirection p before after) := by
  rw [againstDirection_rat, alongDirection_rat]
  constructor <;>
    · dsimp only
      ring

/-- A step along the direction to a neighbour stays on the segment to it. -/
theorem onSegment_alongDirection (p q : Point ℚ) : OnSegment p q (alongDirection p p q) := by
  rw [alongDirection_rat]
  refine ⟨1 / 6, by norm_num, by norm_num, ?_, ?_⟩ <;>
    · dsimp only
      ring

/-- A step against the direction from a neighbour stays on the segment to it. -/
theorem onSegment_againstDirection (p q : Point ℚ) : OnSegment q p (againstDirection q p q) := by
  rw [againstDirection_rat]
  refine ⟨1 / 6, by norm_num, by norm_num, ?_, ?_⟩ <;>
    · dsimp only
      ring

/-- A path has no corner: at every point between two others the control points lie opposite to each
other, and at the ends of the path they lie on the segments to the only neighbours. -/
structure IsSmooth (points : List (Point ℚ)) (steps : List (PathStep ℚ)) : Prop where
  interior : ∀ i c d p c' d' q, steps[i]? = some (.curve c d p) →
    steps[i + 1]? = some (.curve c' d' q) → IsMiddle p d c'
  first : ∀ p c d q, points[0]? = some p → steps[1]? = some (.curve c d q) → OnSegment p q c
  last : ∀ p c d q, points[points.length - 2]? = some p →
    steps[points.length - 1]? = some (.curve c d q) → OnSegment q p d

variable {points : List (Point ℚ)}

/-- A smooth path has no corner. -/
theorem isSmooth_smoothPath (h : 3 ≤ points.length) : IsSmooth points (smoothPath points) where
  interior i c d p c' d' q hstep hstep' := by
    obtain ⟨j, start, _, after, rfl, hstart, hp, -, hafter, -, rfl⟩ :=
      exists_points_of_curve h hstep
    obtain ⟨_, middle, before, _, hj, hmiddle, hq, hbefore, -, rfl, -⟩ :=
      exists_points_of_curve h hstep'
    obtain rfl := Nat.succ_injective hj
    obtain ⟨hlt, -⟩ := List.getElem?_eq_some_iff.mp hq
    -- the second curve begins where the first one ends, and the outer points are neighbours of both
    obtain rfl : middle = p := Option.some.inj (hmiddle.symm.trans hp)
    obtain rfl : before = start := Option.some.inj (hbefore.symm.trans hstart)
    obtain rfl : after = q := by
      rw [min_eq_left (by omega)] at hafter
      exact Option.some.inj (hafter.symm.trans hq)
    exact isMiddle_direction middle before after
  first p c d q hp hstep := by
    obtain ⟨j, start, before, _, hj, hstart, -, hbefore, -, rfl, -⟩ :=
      exists_points_of_curve h hstep
    obtain rfl : j = 0 := by omega
    obtain rfl : start = p := Option.some.inj (hstart.symm.trans hp)
    obtain rfl : before = start := Option.some.inj (hbefore.symm.trans hstart)
    exact onSegment_alongDirection before q
  last p c d q hp hstep := by
    obtain ⟨j, start, _, after, hj, hstart, hq, -, hafter, -, rfl⟩ :=
      exists_points_of_curve h hstep
    obtain rfl : j = points.length - 2 := by omega
    obtain rfl : start = p := Option.some.inj (hstart.symm.trans hp)
    obtain rfl : after = q := by
      have hend : min (points.length - 2 + 2) (points.length - 1) = points.length - 2 + 1 := by
        omega
      rw [hend] at hafter
      exact Option.some.inj (hafter.symm.trans hq)
    exact onSegment_againstDirection start after

/-- A smooth path of three points at least looks up no point that is not there, starts at the first
point, runs from each point to the next one in a curve, and has no corner. -/
theorem interpolates_and_isSmooth_smoothPath (h : 3 ≤ points.length) :
    (∀ i : Int, ∃ p, pointAt? points i = some p) ∧ Interpolates points (smoothPath points) ∧
      IsSmooth points (smoothPath points) :=
  ⟨exists_pointAt? (List.length_pos_iff.mp (by omega)), interpolates_smoothPath h,
    isSmooth_smoothPath h⟩

/-- The points of a path that goes up, turns and comes down again. -/
def archPoints : List (Point ℚ) := [⟨0, 0⟩, ⟨6, 12⟩, ⟨12, 12⟩, ⟨18, 0⟩]

/-- The path goes on at its inner points in the direction in which it comes. -/
theorem smoothPath_archPoints : 3 ≤ archPoints.length ∧
    smoothPath archPoints = [.move ⟨0, 0⟩, .curve ⟨1, 2⟩ ⟨4, 10⟩ ⟨6, 12⟩,
      .curve ⟨8, 14⟩ ⟨10, 14⟩ ⟨12, 12⟩, .curve ⟨14, 10⟩ ⟨17, 2⟩ ⟨18, 0⟩] ∧
    (∀ i : Int, ∃ p, pointAt? archPoints i = some p) ∧
    Interpolates archPoints (smoothPath archPoints) ∧
    IsSmooth archPoints (smoothPath archPoints) := by
  refine ⟨by decide, ?_, interpolates_and_isSmooth_smoothPath (by decide)⟩
  simp [smoothPath, archPoints, List.range_succ, curve?, pointAt?, clampedIndex, alongDirection_rat,
    againstDirection_rat]
  norm_num

end DiagramScene.Svg
