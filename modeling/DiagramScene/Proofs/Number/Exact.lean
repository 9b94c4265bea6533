import Mathlib
import DiagramScene.Scalar

/-!
# Exact arithmetic

The rationals are scalars.  Every rational is finite, and no operation rounds unless it is asked for
a whole number.  So a function on scalars, applied to rationals, is what a program computes without
its rounding errors, and the lemmas of this file turn its operations into those of an ordered field.
-/

namespace DiagramScene

namespace Number

/-- The whole number nearest to a rational, of two the even one. -/
def nearestEven (q : ℚ) : ℤ :=
  let rest := q - ⌊q⌋
  if rest < 1 / 2 then ⌊q⌋
  else if 1 / 2 < rest then ⌊q⌋ + 1
  else if Even ⌊q⌋ then ⌊q⌋ else ⌊q⌋ + 1

/-- The next whole number from a rational toward zero. -/
def towardZero (q : ℚ) : ℤ := if 0 ≤ q then ⌊q⌋ else ⌈q⌉

end Number

instance : Scalar ℚ where
  lt a b := decide (a < b)
  le a b := decide (a ≤ b)
  isFinite _ := true
  ofNat n := n
  roundEven q := Number.nearestEven q
  truncate q := Number.towardZero q
  ceil q := ⌈q⌉
  wholePart bound q := min bound ⌊q⌋₊
  single q := q
  sign q := if q < 0 then -1 else 1

namespace Scalar

variable (a b : ℚ)

@[simp] theorem isFinite_rat : isFinite a = true := rfl

@[simp] theorem lt_rat : lt a b = decide (a < b) := rfl

@[simp] theorem le_rat : le a b = decide (a ≤ b) := rfl

@[simp] theorem zero_rat : (0.0 : ℚ) = 0 := by norm_num

@[simp] theorem two_rat : (2.0 : ℚ) = 2 := by norm_num

@[simp] theorem finiteOrZero_rat : finiteOrZero a = a := rfl

@[simp] theorem eq_rat : eq a b = decide (a = b) := by
  rw [eq, le_rat, le_rat, ← Bool.decide_and, decide_eq_decide]
  exact le_antisymm_iff.symm

@[simp] theorem min_rat : min a b = a ⊓ b := by
  unfold min
  rcases lt_or_ge a b with h | h
  · simp [h, h.le]
  · simp [h, h.not_gt]

@[simp] theorem max_rat : max a b = a ⊔ b := by
  unfold max
  rcases lt_or_ge b a with h | h
  · simp [h, h.le]
  · simp [h, h.not_gt]

@[simp] theorem nonneg_rat : nonneg a = a ⊔ 0 := by
  rw [nonneg, max_rat, zero_rat]

@[simp] theorem abs_rat : abs a = |a| := by
  unfold abs
  rcases lt_trichotomy a 0 with h | rfl | h
  · simp [h, abs_of_neg h]
  · simp
  · simp [h.not_gt, h.not_ge, abs_of_pos h]

/-- A rational counts as a wish if it is positive. -/
@[simp] theorem positive?_rat : positive? a = if 0 < a then some a else none := by
  simp [positive?]

end Scalar

end DiagramScene
