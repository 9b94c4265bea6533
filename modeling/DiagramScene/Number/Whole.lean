import DiagramScene.Number.Dyadic

/-!
# Rounding to whole numbers

A rounding rule chooses between the two whole numbers next to a fraction.  `roundWith` applies a
rule to a `Float` and keeps the sign, also of a zero; numbers without a fractional part,
infinities and values that are not numbers are their own results.
-/

namespace DiagramScene.Number

/-- Which whole number near a fraction is taken. -/
inductive Rounding where
  /-- The next whole number below. -/
  | down
  /-- The next whole number above. -/
  | up
  /-- The next whole number toward zero. -/
  | towardZero
  /-- The nearest whole number, of two the one farther from zero. -/
  | nearestAway
  /-- The nearest whole number, of two the even one. -/
  | nearestEven
  deriving DecidableEq, Repr

/-- The rounded magnitude of the fraction `num / den` of a number with the given sign. -/
def Rounding.magnitude (rule : Rounding) (negative : Bool) (num den : Nat) : Nat :=
  let below := num / den
  let rest := num % den
  let above := if rest = 0 then below else below + 1
  match rule with
  | .down => if negative then above else below
  | .up => if negative then below else above
  | .towardZero => below
  | .nearestAway => if den ≤ 2 * rest then above else below
  | .nearestEven =>
    if 2 * rest < den then below
    else if den < 2 * rest then above
    else if below % 2 = 0 then below else above

/-- The number rounded by a rule. -/
def roundWith (rule : Rounding) (x : Float) : Float :=
  match Dyadic.ofFloat? x with
  | none => x
  | some d =>
    if 0 ≤ d.exponent then x
    else
      let (num, den) := d.fraction
      let magnitude := Float.ofNat (rule.magnitude d.negative num den)
      if d.negative then -magnitude else magnitude

/-- The whole part of a number of at least zero, at most `bound`; zero for any other value. -/
def wholePart (bound : Nat) (x : Float) : Nat :=
  match Dyadic.ofFloat? x with
  | none => if 0.0 < x then bound else 0
  | some d =>
    if d.negative then 0
    else
      let (num, den) := d.fraction
      min bound (num / den)

end DiagramScene.Number
