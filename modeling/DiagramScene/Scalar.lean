import DiagramScene.Number.Whole

/-!
# Scalars

The geometry of a scene is written once, over any type with the operations of `Scalar`.  Programs
run it on floating point numbers; in exact arithmetic the same definitions are functions on
rationals.

The class holds operations and no laws.  Comparisons are Boolean, because a floating point value
that is not a number is comparable to none.
-/

namespace DiagramScene

/-- The operations that geometry needs of its numbers. -/
class Scalar (α : Type) extends Add α, Sub α, Mul α, Div α, Neg α, OfScientific α where
  lt : α → α → Bool
  le : α → α → Bool
  /-- The value is a number, and not an infinite one. -/
  isFinite : α → Bool
  ofNat : Nat → α
  /-- The nearest whole number, of two the even one. -/
  roundEven : α → α
  /-- The next whole number toward zero. -/
  truncate : α → α
  /-- The next whole number above. -/
  ceil : α → α
  /-- The whole part of a number between zero and a bound; below that range zero, above it the
  bound. -/
  wholePart : Nat → α → Nat
  /-- The number in the precision of a drawing transform. -/
  single : α → α
  /-- One or minus one, by the sign of a number; a zero may have a sign, too. -/
  sign : α → α

instance : Scalar Float where
  lt x y := decide (x < y)
  le x y := decide (x ≤ y)
  isFinite := Float.isFinite
  ofNat := Float.ofNat
  roundEven := Number.roundWith .nearestEven
  truncate := Number.roundWith .towardZero
  ceil := Number.roundWith .up
  wholePart := Number.wholePart
  single x := x.toFloat32.toFloat
  sign x := if x.isNaN then x else if x.toBits.toNat < 0x8000000000000000 then 1.0 else -1.0

namespace Scalar

variable {α : Type} [Scalar α]

/-- The two numbers are equal. -/
def eq (a b : α) : Bool := le a b && le b a

/-- The smaller of two numbers.  A value that is not a number gives way to the other one, and of
two equal ones the second is taken. -/
def min (a b : α) : α := if lt a b then a else if le b b then b else a

/-- The larger of two numbers, with the rules of `min`. -/
def max (a b : α) : α := if lt b a then a else if le b b then b else a

/-- The distance from zero. -/
def abs (a : α) : α := if lt a 0.0 then -a else if le a 0.0 then 0.0 else a

/-- The number, or zero if it is not finite. -/
def finiteOrZero (a : α) : α := if isFinite a then a else 0.0

/-- The number, or zero if it is negative. -/
def nonneg (a : α) : α := max a 0.0

/-- The number if it is finite and above zero. -/
def positive? (a : α) : Option α := if isFinite a && lt 0.0 a then some a else none

end Scalar

end DiagramScene
