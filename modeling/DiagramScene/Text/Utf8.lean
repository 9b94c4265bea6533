/-!
# UTF-8

`decodeLossy` reads bytes as UTF-8 and never fails.  Each longest beginning of a character that is
not continued, and each byte that begins none, becomes one replacement character, and reading goes
on right after it.  `decode?` reads only well-formed bytes.
-/

namespace DiagramScene

/-- Bytes, in order. -/
abbrev Bytes := List UInt8

namespace Text.Utf8

/-- Stands for bytes that are no character. -/
def replacement : Char := '\uFFFD'

/-- What has been read of a character: the bits of its code point so far, how many bytes are to
follow, and the range of the next one. -/
structure Begun where
  bits : Nat
  missing : Nat
  low : Nat
  high : Nat
  deriving DecidableEq, Repr

/-- The first byte of a character: the whole character, its beginning, or neither. -/
inductive First where
  | whole (c : Char)
  | begun (b : Begun)
  | none

/-- Reads the first byte of a character.  The ranges of the second byte leave out the forms that
are longer than needed, the surrogates and what lies beyond the last code point. -/
def first (byte : UInt8) : First :=
  let n := byte.toNat
  if n < 0x80 then .whole (Char.ofNat n)
  else if n < 0xC2 then .none
  else if n < 0xE0 then .begun ⟨n % 32, 1, 0x80, 0xBF⟩
  else if n = 0xE0 then .begun ⟨n % 16, 2, 0xA0, 0xBF⟩
  else if n = 0xED then .begun ⟨n % 16, 2, 0x80, 0x9F⟩
  else if n < 0xF0 then .begun ⟨n % 16, 2, 0x80, 0xBF⟩
  else if n = 0xF0 then .begun ⟨n % 8, 3, 0x90, 0xBF⟩
  else if n < 0xF4 then .begun ⟨n % 8, 3, 0x80, 0xBF⟩
  else if n = 0xF4 then .begun ⟨n % 8, 3, 0x80, 0x8F⟩
  else .none

/-- A character that has been begun, after its next byte. -/
def Begun.next (b : Begun) (byte : UInt8) : Begun :=
  ⟨b.bits * 64 + byte.toNat % 64, b.missing - 1, 0x80, 0xBF⟩

/-- The byte continues a character that has been begun. -/
def Begun.admits (b : Begun) (byte : UInt8) : Bool :=
  decide (b.low ≤ byte.toNat ∧ byte.toNat ≤ b.high)

/-- The characters and the state after a byte that begins a character. -/
def start (byte : UInt8) : List Char × Option Begun :=
  match first byte with
  | .whole c => ([c], none)
  | .begun b => ([], some b)
  | .none => ([replacement], none)

/-- The characters and the state after one byte. -/
def step (state : Option Begun) (byte : UInt8) : List Char × Option Begun :=
  match state with
  | none => start byte
  | some b =>
    if b.admits byte then
      let b := b.next byte
      if b.missing = 0 then ([Char.ofNat b.bits], none) else ([], some b)
    else
      let (cs, state) := start byte
      (replacement :: cs, state)

/-- The characters of the bytes after what has been read. -/
def decodeFrom : Option Begun → Bytes → List Char
  | none, [] => []
  | some _, [] => [replacement]
  | state, byte :: bytes =>
    let (cs, state) := step state byte
    cs ++ decodeFrom state bytes

/-- The text of bytes, with replacement characters for what is no character. -/
def decodeLossy (bytes : Bytes) : String := String.ofList (decodeFrom none bytes)

/-- The bytes of a text. -/
def encode (s : String) : Bytes := s.toUTF8.toList

/-- The text of bytes that are well formed. -/
def decode? (bytes : Bytes) : Option String := String.fromUTF8? bytes.toByteArray

end Text.Utf8

end DiagramScene
