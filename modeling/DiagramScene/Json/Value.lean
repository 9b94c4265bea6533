import DiagramScene.Keyed

/-!
# JSON values

The members of an object are a keyed list, so they keep their order.  A number is an integer or a
floating point number: `3` and `3.0` are different values with different texts.
-/

namespace DiagramScene

/-- A number as a JSON text can hold it. -/
inductive Number where
  /-- A number written without point and exponent, within the 64-bit ranges. -/
  | int (n : Int)
  | float (x : Float)
  deriving BEq, Repr

/-- The number as a floating point number. -/
def Number.toFloat : Number → Float
  | .int n => Float.ofInt n
  | .float x => x

/-- A JSON value. -/
inductive Json where
  | null
  | bool (b : Bool)
  | num (n : Number)
  | str (s : String)
  | arr (items : List Json)
  | obj (members : List (String × Json))
  deriving BEq, Inhabited, Repr

/-- The members of an object, in order. -/
abbrev Members := Keyed Json

namespace Json

/-- A floating point number. -/
def float (x : Float) : Json := .num (.float x)

/-- An integer. -/
def int (n : Int) : Json := .num (.int n)

/-- A whole number of at least zero. -/
def nat (n : Nat) : Json := .num (.int n)

/-- A floating point number; one that is not finite has no JSON form and becomes null. -/
def finite (x : Float) : Json := if x.isFinite then float x else null

/-- A value that may be absent; null if it is. -/
def option {α : Type} (encode : α → Json) : Option α → Json
  | none => null
  | some a => encode a

/-- The members of an object. -/
def members? : Json → Option Members
  | obj ms => some ms
  | _ => none

/-- The items of an array. -/
def items? : Json → Option (List Json)
  | arr xs => some xs
  | _ => none

/-- The text of a string. -/
def text? : Json → Option String
  | str s => some s
  | _ => none

/-- The truth value. -/
def bool? : Json → Option Bool
  | bool b => some b
  | _ => none

/-- A number, as a floating point number. -/
def number? : Json → Option Float
  | num n => some n.toFloat
  | _ => none

/-- The value is null. -/
def isNull : Json → Bool
  | null => true
  | _ => false

/-- The value is an object without members. -/
def isEmptyObject : Json → Bool
  | obj [] => true
  | _ => false

/-- The value of a key of an object. -/
def get? (j : Json) (key : String) : Option Json :=
  j.members?.bind (Keyed.get? · key)

end Json

end DiagramScene
