import DiagramScene.Number.Whole

/-!
# Shortest decimals

`shortest` gives the decimal with the fewest digits among those that are closer to a floating
point number than to any other.  For each digit count in turn it tests the two neighbours of the
number on the grid of decimals with so many digits; the first grid with a hit wins.  Where both
neighbours are hits a rounding rule chooses.  Under a rule that rounds to the nearest the result is
the nearest of the shortest decimals, and the rule tells which of two equally near ones it is.
-/

namespace DiagramScene.Number

/-- The decimal `digits * 10 ^ exponent`. -/
structure Decimal where
  digits : Nat
  exponent : Int
  deriving DecidableEq, Repr

/-- How many decimal digits a number has; zero has none. -/
def digitCount (n : Nat) : Nat :=
  if n = 0 then 0 else (Nat.toDigits 10 n).length

/-- The exponent of the first decimal digit of the fraction `num / den`, which is above zero. -/
def leadingExponent (num den : Nat) : Int :=
  if den ≤ num then (digitCount (num / den) : Int) - 1
  else -(digitCount ((den - 1) / num) : Int)

/-- Fractions that read back as one floating point number, with the number itself in their midst.
All parts are over one denominator; the ends belong to the range if the significand is even. -/
structure ReadBack where
  low : Nat
  value : Nat
  high : Nat
  den : Nat
  ends : Bool
  deriving Repr

/-- The range of a significand and its exponent.  Below a power of two the numbers lie closer. -/
def ReadBack.ofDyadic (significand : Nat) (exponent : Int) : ReadBack :=
  let below := if significand = hiddenBit ∧ -1074 < exponent then 1 else 2
  let shift := if 0 ≤ exponent then power 2 exponent.toNat else 1
  let den := if 0 ≤ exponent then 4 else 4 * power 2 (-exponent).toNat
  { low := (4 * significand - below) * shift
    value := 4 * significand * shift
    high := (4 * significand + 2) * shift
    den := den
    ends := significand % 2 = 0 }

/-- The fraction `num / den` reads back as the number of the range. -/
def ReadBack.contains (r : ReadBack) (num den : Nat) : Bool :=
  if r.ends then r.low * den ≤ num * r.den && num * r.den ≤ r.high * den
  else r.low * den < num * r.den && num * r.den < r.high * den

/-- A decimal of the form `digits * 10 ^ exponent` for a given exponent, if one reads back: the
one that the rule rounds to, or else the neighbour on the other side. -/
def ReadBack.onGrid? (r : ReadBack) (rule : Rounding) (exponent : Int) : Option Decimal :=
  let up := if 0 ≤ exponent then power 10 exponent.toNat else 1
  let down := if 0 ≤ exponent then 1 else power 10 (-exponent).toNat
  let num := r.value * down
  let den := r.den * up
  let below := num / den
  let first := rule.magnitude false num den
  let second := if first = below then below + 1 else below
  if r.contains (first * up) down then some ⟨first, exponent⟩
  else if r.contains (second * up) down then some ⟨second, exponent⟩
  else none

/-- The first grid with a hit, from the one with `count` digits on. -/
def ReadBack.search (r : ReadBack) (rule : Rounding) (leading : Int) : Nat → Nat → Decimal
  | 0, _ => ⟨0, 0⟩
  | left + 1, count =>
    match r.onGrid? rule (leading - count + 1) with
    | some d => d
    | none => r.search rule leading left (count + 1)

/-- A decimal without zeros at its end. -/
def Decimal.strip (d : Decimal) : Decimal :=
  go (digitCount d.digits) d
where
  /-- Drops one zero per step. -/
  go : Nat → Decimal → Decimal
    | 0, d => d
    | n + 1, d => if d.digits % 10 = 0 then go n ⟨d.digits / 10, d.exponent + 1⟩ else d

/-- The shortest decimal that reads back as `significand * 2 ^ exponent`, where the rule chooses
among several; zero for zero. -/
def shortest (rule : Rounding) (significand : Nat) (exponent : Int) : Decimal :=
  if significand = 0 then ⟨0, 0⟩
  else
    let r := ReadBack.ofDyadic significand exponent
    (r.search rule (leadingExponent r.value r.den) 17 1).strip

end DiagramScene.Number
