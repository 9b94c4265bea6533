import DiagramScene.Number.Shortest

/-!
# Decimal notation

How a floating point number is written down, once its shortest decimal is known: the format says
for which exponents of the first digit the number is written by place value alone, whether a whole
number keeps a point, and which of two shortest decimals is written that are equally near.  `plain`
is the notation without exponents, `exchange` the one of JSON.
-/

namespace DiagramScene.Number

/-- The decisions of a decimal notation. -/
structure Format where
  /-- The least exponent of the first digit that is written by place value. -/
  lowest : Option Int
  /-- The greatest exponent of the first digit that is written by place value. -/
  highest : Option Int
  /-- A whole number written by place value ends in `.0`. -/
  keepsPoint : Bool
  /-- The shortest decimal that is written where there are several. -/
  rounding : Rounding
  deriving Repr

/-- The format has place value notation for a first digit with this exponent. -/
def Format.isPositional (format : Format) (leading : Int) : Bool :=
  (match format.lowest with | none => true | some low => decide (low ≤ leading)) &&
    (match format.highest with | none => true | some high => decide (leading ≤ high))

/-- Digits by place value, with zeros where the digits do not reach. -/
def positional (keepsPoint : Bool) (digits : List Char) (exponent : Int) : List Char :=
  if 0 ≤ exponent then
    digits ++ List.replicate exponent.toNat '0' ++ (if keepsPoint then ['.', '0'] else [])
  else
    let places := (-exponent).toNat
    if places < digits.length then
      digits.take (digits.length - places) ++ '.' :: digits.drop (digits.length - places)
    else
      '0' :: '.' :: List.replicate (places - digits.length) '0' ++ digits

/-- One digit, a point if more follow, and the exponent with its sign. -/
def scientific (digits : List Char) (leading : Int) : List Char :=
  let mantissa := match digits with
    | [] => []
    | [d] => [d]
    | d :: ds => d :: '.' :: ds
  let sign := if leading < 0 then '-' else '+'
  mantissa ++ 'e' :: sign :: Nat.toDigits 10 leading.natAbs

/-- The digits of a decimal in a format. -/
def Format.render (format : Format) (d : Decimal) : List Char :=
  let digits := Nat.toDigits 10 d.digits
  let leading := d.exponent + digits.length - 1
  if format.isPositional leading then positional format.keepsPoint digits d.exponent
  else scientific digits leading

/-- A number in a format.  An infinity is `inf`, a value that is not a number `NaN`. -/
def Format.chars (format : Format) (x : Float) : List Char :=
  match Dyadic.ofFloat? x with
  | some d =>
    let text := format.render (shortest format.rounding d.significand d.exponent)
    if d.negative then '-' :: text else text
  | none =>
    if x.isNaN then ['N', 'a', 'N']
    else if x < 0.0 then ['-', 'i', 'n', 'f'] else ['i', 'n', 'f']

/-- Place value for every number, and no point in a whole one.  Of two decimals that are equally
near the one farther from zero is written. -/
def plain : Format := ⟨none, none, false, .nearestAway⟩

/-- The notation of JSON texts: place value where the first digit stands from `10⁻⁵` to `10¹⁵`,
and a point that tells a floating point number from an integer.  Of two decimals that are equally
near the one with the even last digit is written. -/
def exchange : Format := ⟨some (-5), some 15, true, .nearestEven⟩

/-- The number in plain notation. -/
def plainText (x : Float) : String :=
  String.ofList (plain.chars x)

/-- The number in the notation of JSON texts. -/
def exchangeText (x : Float) : String :=
  String.ofList (exchange.chars x)

end DiagramScene.Number
