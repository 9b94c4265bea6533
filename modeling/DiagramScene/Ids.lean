/-!
# Sources of ids

Elements that are made up need an id, nonces and a time.  An `IdSource` draws them from a state,
so that a program can use counters or chance and a proof any state at all.  `Counter` is the one
source of compiled scenes: a single counter behind ids, seeds, nonces and times.
-/

namespace DiagramScene

/-- How ids, nonces and times are drawn from a state. -/
structure IdSource (σ : Type) where
  nextId : σ → String × σ
  nextNonce : σ → Int64 × σ
  /-- The time in milliseconds. -/
  now : σ → Int64 × σ

namespace IdSource

/-- The number of hexadecimal digits of a random id. -/
def idDigits : Nat := 32

/-- The last digits of a number in hexadecimal, so many of them. -/
def hexDigits : Nat → Nat → List Char
  | 0, _ => []
  | count + 1, n => hexDigits count (n / 16) ++ [Nat.digitChar (n % 16)]

/-- The greatest number with so many hexadecimal digits. -/
def idMax : Nat := 0xffffffffffffffffffffffffffffffff

/-- The greatest nonce. -/
def nonceMax : Nat := 0x7fffffff

/-- Random ids and nonces, at a given time. -/
def random (time : Int64) : IdSource StdGen where
  nextId gen :=
    let (n, gen) := randNat gen 0 idMax
    (String.ofList (hexDigits idDigits n), gen)
  nextNonce gen :=
    let (n, gen) := randNat gen 1 nonceMax
    (Int64.ofNat n, gen)
  now gen := (time, gen)

end IdSource

/-- One counter for ids, seeds, nonces and times. -/
structure Counter where
  next : Nat
  /-- The time in milliseconds from which the times are counted. -/
  start : Int64
  deriving DecidableEq, Repr

namespace Counter

/-- The counter at its beginning. -/
def ofStart (start : Int64) : Counter := ⟨1, start⟩

/-- The counter after one more use. -/
def advance (c : Counter) : Counter := { c with next := c.next + 1 }

/-- The id of a kind of thing; uses the counter up. -/
def nextId (c : Counter) (kind : String) : String × Counter :=
  (s!"{kind}-{c.next}", c.advance)

/-- The seed of the next thing. -/
def seed (c : Counter) : Int64 := Int64.ofNat c.next

/-- The nonce of the next thing. -/
def nonce (c : Counter) : Int64 := Int64.ofNat (c.next + 100)

/-- The time of the next thing; uses the counter up. -/
def nextTime (c : Counter) : Int64 × Counter :=
  (c.start + Int64.ofNat c.next, c.advance)

end Counter

end DiagramScene
