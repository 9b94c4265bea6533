/-!
# Floating point numbers as dyadic rationals

Every finite `Float` is `± significand * 2 ^ exponent`.  `Dyadic.ofFloat?` reads the three parts
off the number's bits, so that rounding to whole numbers and printing are exact integer
arithmetic.
-/

namespace DiagramScene.Number

/-- The number `± significand * 2 ^ exponent`. -/
structure Dyadic where
  negative : Bool
  significand : Nat
  exponent : Int
  deriving DecidableEq, Repr

/-- A power of a whole number. -/
def power (base exponent : Nat) : Nat := Nat.pow base exponent

/-- The leading bit of a significand, which is not stored. -/
def hiddenBit : Nat := 0x10000000000000

namespace Dyadic

/-- The parts of a finite number; `none` for an infinity and for a value that is not a number. -/
def ofFloat? (x : Float) : Option Dyadic :=
  let bits : Nat := x.toBits.toNat
  let fraction : Nat := bits % hiddenBit
  let biased : Nat := bits / hiddenBit % 0x800
  let negative := decide (0x8000000000000000 ≤ bits)
  if biased = 2047 then none
  else if biased = 0 then some ⟨negative, fraction, -1074⟩
  else some ⟨negative, hiddenBit + fraction, (biased : Int) - 1075⟩

/-- The magnitude as a fraction, numerator and denominator. -/
def fraction (d : Dyadic) : Nat × Nat :=
  if 0 ≤ d.exponent then (d.significand * power 2 d.exponent.toNat, 1)
  else (d.significand, power 2 (-d.exponent).toNat)

end Dyadic

end DiagramScene.Number
