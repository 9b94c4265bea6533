/-!
# Reading decimals

`readDecimal?` accepts a sign, the names of the infinities and of a value that is not a number in
either case, and decimals with an optional point and an optional exponent; at least one digit has
to stand beside the point.  `readNatural?` accepts whole numbers up to a bound.
-/

namespace DiagramScene.Number

/-- The value of a run of decimal digits. -/
def digitsValue (cs : List Char) : Nat :=
  cs.foldl (fun n c => 10 * n + (c.toNat - '0'.toNat)) 0

/-- A sign at the start of a text, and what follows it. -/
def splitSign : List Char → Bool × List Char
  | '-' :: cs => (true, cs)
  | '+' :: cs => (false, cs)
  | cs => (false, cs)

/-- Digits without the zeros before the first other digit. -/
def significantDigits (cs : List Char) : List Char := cs.dropWhile (· = '0')

/-- The exponent of ten above which every number is infinite and below whose opposite every number
is zero. -/
def exponentBound : Nat := 400

/-- The number that digits stand for, times a power of ten, correctly rounded.  Outside the range of
exponents that a floating point number can have only the place of the first significant digit
counts. -/
def ofDecimal (cs : List Char) (exponent : Int) : Float :=
  let digits := significantDigits cs
  let magnitude := exponent + digits.length
  if digits.isEmpty then 0.0
  else if exponentBound < magnitude then 1.0 / 0.0
  else if magnitude < -exponentBound then 0.0
  else if 0 ≤ exponent then Float.ofScientific (digitsValue digits) false exponent.toNat
  else Float.ofScientific (digitsValue digits) true (-exponent).toNat

/-- The exponent after an `e`; the text has to end with its digits. -/
def readExponent? : List Char → Option Int
  | [] => some 0
  | c :: cs =>
    if c = 'e' ∨ c = 'E' then
      let (negative, ds) := splitSign cs
      if ds.isEmpty || !ds.all Char.isDigit then none
      else some (if negative then -(digitsValue ds : Int) else digitsValue ds)
    else none

/-- A decimal without a sign. -/
def readMagnitude? (cs : List Char) : Option Float :=
  let whole := cs.takeWhile Char.isDigit
  let rest := cs.dropWhile Char.isDigit
  let (fraction, tail) := match rest with
    | '.' :: ds => (ds.takeWhile Char.isDigit, ds.dropWhile Char.isDigit)
    | ds => ([], ds)
  if whole.isEmpty && fraction.isEmpty then none
  else do
    let exponent ← readExponent? tail
    some (ofDecimal (whole ++ fraction) (exponent - fraction.length))

/-- The number that a text stands for. -/
def readDecimal? (s : String) : Option Float :=
  let (negative, cs) := splitSign s.toList
  let magnitude := match String.ofList (cs.map Char.toLower) with
    | "inf" | "infinity" => some (1.0 / 0.0)
    | "nan" => some (0.0 / 0.0)
    | _ => readMagnitude? cs
  magnitude.map fun x => if negative then -x else x

/-- A whole number of at most `bound`: decimal digits after an optional plus sign. -/
def readNatural? (bound : Nat) (s : String) : Option Nat :=
  let cs := match s.toList with
    | '+' :: cs => cs
    | cs => cs
  if cs.isEmpty || !cs.all Char.isDigit then none
  else
    let n := digitsValue cs
    if n ≤ bound then some n else none

end DiagramScene.Number
