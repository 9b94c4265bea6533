import DiagramScene.Json.Value
import DiagramScene.Number.Reading
import DiagramScene.Text.Utf8

/-!
# Reading JSON texts

`Json.read` reads one value from the bytes of a text.  It stops at the first fault and reports the
line and the column reached, counted in bytes.  Arrays and objects may be nested `limit - 1` deep.

A reading function takes the bytes that are left and gives back those after what it has read.  A
fault notes how many bytes were left where it was found, from which the position in the text
follows.
-/

namespace DiagramScene.Json

/-- What is wrong with a JSON text. -/
inductive SyntaxReason where
  | endInValue
  | endInArray
  | endInObject
  | endInString
  | expectedValue
  | expectedIdent
  | expectedColon
  | expectedCommaOrArrayEnd
  | expectedCommaOrObjectEnd
  | trailingComma
  | trailingCharacters
  | keyNotString
  | invalidNumber
  | numberOutOfRange
  | invalidEscape
  | loneSurrogate
  | endInHexEscape
  | invalidCodePoint
  | controlCharacter
  | nestedTooDeep
  deriving DecidableEq, Repr

/-- The wording of a reason. -/
def SyntaxReason.message : SyntaxReason → String
  | endInValue => "EOF while parsing a value"
  | endInArray => "EOF while parsing a list"
  | endInObject => "EOF while parsing an object"
  | endInString => "EOF while parsing a string"
  | expectedValue => "expected value"
  | expectedIdent => "expected ident"
  | expectedColon => "expected `:`"
  | expectedCommaOrArrayEnd => "expected `,` or `]`"
  | expectedCommaOrObjectEnd => "expected `,` or `\x7d`"
  | trailingComma => "trailing comma"
  | trailingCharacters => "trailing characters"
  | keyNotString => "key must be a string"
  | invalidNumber => "invalid number"
  | numberOutOfRange => "number out of range"
  | invalidEscape => "invalid escape"
  | loneSurrogate => "lone leading surrogate in hex escape"
  | endInHexEscape => "unexpected end of hex escape"
  | invalidCodePoint => "invalid unicode code point"
  | controlCharacter => "control character (\\u0000-\\u001F) found while parsing a string"
  | nestedTooDeep => "recursion limit exceeded"

/-- A fault and where it was found: lines count from one, columns in bytes. -/
structure SyntaxError where
  reason : SyntaxReason
  line : Nat
  column : Nat
  deriving DecidableEq, Repr

/-- The wording of a syntax error. -/
def SyntaxError.message (e : SyntaxError) : String :=
  s!"{e.reason.message} at line {e.line} column {e.column}"

/-- A text ended inside a value that it has to complete. -/
def SyntaxReason.isEnd : SyntaxReason → Bool
  | endInValue | endInArray | endInObject | endInString => true
  | _ => false

/-- A reason, and the number of bytes left behind the place of the fault. -/
structure Fault where
  reason : SyntaxReason
  left : Nat

/-- A fault before the bytes that are left. -/
def failBefore {α : Type} (reason : SyntaxReason) (s : Bytes) : Except Fault α :=
  .error ⟨reason, s.length⟩

/-- A fault at the next byte, if there is one. -/
def failAt {α : Type} (reason : SyntaxReason) (s : Bytes) : Except Fault α :=
  .error ⟨reason, s.length - 1⟩

/-- The byte of an ASCII character. -/
def byte (c : Char) : UInt8 := c.toNat.toUInt8

/-- A byte that may stand between the parts of a text. -/
def isSpace (b : UInt8) : Bool :=
  b = 0x20 || b = 0x0A || b = 0x09 || b = 0x0D

/-- The bytes from the next one that is no space. -/
def skipSpace (s : Bytes) : Bytes :=
  s.dropWhile isSpace

/-- A decimal digit. -/
def isDigitByte (b : UInt8) : Bool :=
  0x30 ≤ b && b ≤ 0x39

/-- The value of a decimal digit. -/
def digitOf (b : UInt8) : Nat :=
  b.toNat - 0x30

/-- The rest of a literal name. -/
def readIdent (value : Json) : Bytes → Bytes → Except Fault (Json × Bytes)
  | [], s => .ok (value, s)
  | _ :: _, [] => failBefore .endInValue []
  | e :: es, b :: s => if b = e then readIdent value es s else failBefore .expectedIdent s

/-! ### Numbers -/

/-- The largest whole number that a significand may hold. -/
def significandMax : Nat := 0xffffffffffffffff

/-- The digits at the start of the bytes that still fit the significand, and how many they are. -/
def takeDigits (significand : Nat) (count : Nat) : Bytes → Nat × Nat × Bytes
  | [] => (significand, count, [])
  | b :: s =>
    if isDigitByte b && 10 * significand + digitOf b ≤ significandMax then
      takeDigits (10 * significand + digitOf b) (count + 1) s
    else (significand, count, b :: s)

/-- The number of digits at the start of the bytes. -/
def leadingDigits (s : Bytes) : Nat :=
  (s.takeWhile isDigitByte).length

/-- The power of ten that a significand is multiplied with or divided by. -/
def powerOfTen (n : Nat) : Float :=
  Float.ofScientific 1 false n

/-- The significand scaled by a power of ten, with one rounding for each step of at most 308
places; `none` if the result is too large. -/
def scale (x : Float) (exponent : Int) : Nat → Option Float
  | 0 => some x
  | steps + 1 =>
    if exponent.natAbs ≤ 308 then
      if 0 ≤ exponent then
        let y := x * powerOfTen exponent.natAbs
        if y.isInf then none else some y
      else some (x / powerOfTen exponent.natAbs)
    else if x == 0.0 then some x
    else if 0 ≤ exponent then none
    else scale (x / powerOfTen 308) (exponent + 308) steps

/-- A floating point number from its parts. -/
def floatOf (negative : Bool) (significand : Nat) (exponent : Int) (s : Bytes) :
    Except Fault (Json × Bytes) :=
  match scale (Float.ofNat significand) exponent 4 with
  | none => failBefore .numberOutOfRange s
  | some x => .ok (float (if negative then -x else x), s)

/-- The exponent after its mark.  An exponent of more than 31 bits makes the number too large, or
a zero. -/
def readExponent (negative : Bool) (significand : Nat) (start : Int) (s : Bytes) :
    Except Fault (Json × Bytes) :=
  let (down, s) := match s with
    | b :: t => if b = byte '+' then (false, t) else if b = byte '-' then (true, t) else (false, s)
    | [] => (false, s)
  match s with
  | [] => failBefore .endInValue []
  | b :: t =>
    if !isDigitByte b then failBefore .invalidNumber t
    else go down (digitOf b) t
where
  /-- Adds the digits of the exponent one by one. -/
  go (down : Bool) (value : Nat) : Bytes → Except Fault (Json × Bytes)
    | [] => floatOf negative significand (if down then start - value else start + value) []
    | b :: t =>
      if !isDigitByte b then
        floatOf negative significand (if down then start - value else start + value) (b :: t)
      else if 2147483647 < 10 * value + digitOf b then
        if significand ≠ 0 && !down then failBefore .numberOutOfRange t
        else .ok (float (if negative then -0.0 else 0.0), t.dropWhile isDigitByte)
      else go down (10 * value + digitOf b) t

/-- What may follow the digits of a floating point number: an exponent or nothing. -/
def finishFloat (negative : Bool) (significand : Nat) (exponent : Int) (s : Bytes) :
    Except Fault (Json × Bytes) :=
  match s with
  | b :: t =>
    if b = byte 'e' || b = byte 'E' then readExponent negative significand exponent t
    else floatOf negative significand exponent s
  | [] => floatOf negative significand exponent s

/-- The digits after the point.  Those that no longer fit the significand are dropped. -/
def readFraction (negative : Bool) (significand : Nat) (exponent : Int) (s : Bytes) :
    Except Fault (Json × Bytes) :=
  let (significand', count, rest) := takeDigits significand 0 s
  let rest' := rest.dropWhile isDigitByte
  if count = 0 && rest'.length = rest.length then
    match rest with
    | [] => failAt .endInValue []
    | _ => failAt .invalidNumber rest
  else finishFloat negative significand' (exponent - count) rest'

/-- A number after its sign. -/
def readNumber (negative : Bool) (s : Bytes) : Except Fault (Json × Bytes) :=
  match s with
  | [] => failBefore .endInValue []
  | b :: t =>
    if !isDigitByte b then failBefore .invalidNumber t
    else if b = byte '0' && 0 < leadingDigits t then failAt .invalidNumber t
    else
      let (significand, _, rest) := takeDigits (digitOf b) 1 t
      let overflow := leadingDigits rest
      let rest := rest.drop overflow
      match rest with
      | c :: u =>
        if c = byte '.' then readFraction negative significand overflow u
        else if c = byte 'e' || c = byte 'E' then readExponent negative significand overflow u
        else whole significand overflow rest
      | [] => whole significand overflow rest
where
  /-- A number without point and exponent: an integer where 64 bits can hold it. -/
  whole (significand overflow : Nat) (rest : Bytes) : Except Fault (Json × Bytes) :=
    if 0 < overflow then floatOf negative significand overflow rest
    else if !negative then .ok (nat significand, rest)
    else if significand = 0 || 0x8000000000000000 < significand then
      .ok (float (-Float.ofNat significand), rest)
    else .ok (int (-(significand : Int)), rest)

/-! ### Strings -/

/-- The value of a hexadecimal digit. -/
def hexValue? (b : UInt8) : Option Nat :=
  let n := b.toNat
  if 0x30 ≤ n && n ≤ 0x39 then some (n - 0x30)
  else if 0x41 ≤ n && n ≤ 0x46 then some (n - 0x37)
  else if 0x61 ≤ n && n ≤ 0x66 then some (n - 0x57)
  else none

/-- Four hexadecimal digits. -/
def readHex (s : Bytes) : Except Fault (Nat × Bytes) :=
  match s with
  | a :: b :: c :: d :: t =>
    match hexValue? a, hexValue? b, hexValue? c, hexValue? d with
    | some a, some b, some c, some d => .ok (((a * 16 + b) * 16 + c) * 16 + d, t)
    | _, _, _, _ => failBefore .invalidEscape t
  | _ => failBefore .endInString []

/-- The next byte has to be the given one, as the middle of a pair of escapes. -/
def expectInPair (expected : UInt8) (s : Bytes) : Except Fault (Unit × Bytes) :=
  match s with
  | [] => failBefore .endInString []
  | b :: t => if b = expected then .ok ((), t) else failBefore .endInHexEscape t

/-- The code point of an escape by number; two such escapes may form a surrogate pair. -/
def readCodePoint (s : Bytes) : Except Fault (Nat × Bytes) := do
  let (n, s) ← readHex s
  if 0xDC00 ≤ n && n ≤ 0xDFFF then failBefore .loneSurrogate s
  else if n < 0xD800 || 0xDBFF < n then .ok (n, s)
  else
    let (_, s) ← expectInPair (byte '\\') s
    let (_, s) ← expectInPair (byte 'u') s
    let (m, s) ← readHex s
    if m < 0xDC00 || 0xDFFF < m then failBefore .loneSurrogate s
    else .ok ((n - 0xD800) * 1024 + (m - 0xDC00) + 0x10000, s)

/-- The bytes of a code point in UTF-8. -/
def encodeCodePoint (n : Nat) : Bytes :=
  Text.Utf8.encode (Char.ofNat n).toString

/-- The bytes that an escape stands for. -/
def readEscape (s : Bytes) : Except Fault (Bytes × Bytes) :=
  match s with
  | [] => failBefore .endInString []
  | b :: t =>
    if b = byte '"' || b = byte '\\' || b = byte '/' then .ok ([b], t)
    else if b = byte 'b' then .ok ([8], t)
    else if b = byte 'f' then .ok ([12], t)
    else if b = byte 'n' then .ok ([10], t)
    else if b = byte 'r' then .ok ([13], t)
    else if b = byte 't' then .ok ([9], t)
    else if b = byte 'u' then do
      let (n, t) ← readCodePoint t
      .ok (encodeCodePoint n, t)
    else failBefore .invalidEscape t

/-- The bytes of a string after its opening quote, collected last one first. -/
def readStringBytes : Nat → Bytes → Bytes → Except Fault (Bytes × Bytes)
  | 0, _, s => failBefore .endInString s
  | fuel + 1, acc, s =>
    match s with
    | [] => failBefore .endInString []
    | b :: t =>
      if b = byte '"' then .ok (acc.reverse, t)
      else if b = byte '\\' then
        match readEscape t with
        | .error e => .error e
        | .ok (bytes, u) => readStringBytes fuel (bytes.reverse ++ acc) u
      else if b < 0x20 then failBefore .controlCharacter t
      else readStringBytes fuel (b :: acc) t

/-- A string after its opening quote; its bytes have to be valid UTF-8. -/
def readString (s : Bytes) : Except Fault (String × Bytes) := do
  let (bytes, rest) ← readStringBytes (s.length + 1) [] s
  match Text.Utf8.decode? bytes with
  | some text => .ok (text, rest)
  | none => failBefore .invalidCodePoint rest

/-! ### Values -/

mutual

/-- A value.  `depth` is one more than the number of arrays and objects that may still be opened.
-/
def readValue (fuel depth : Nat) (s : Bytes) : Except Fault (Json × Bytes) :=
  match fuel with
  | 0 => failBefore .endInValue s
  | fuel + 1 =>
    match skipSpace s with
    | [] => failAt .endInValue []
    | b :: t =>
      if b = byte 'n' then readIdent .null "ull".toUTF8.toList t
      else if b = byte 't' then readIdent (.bool true) "rue".toUTF8.toList t
      else if b = byte 'f' then readIdent (.bool false) "alse".toUTF8.toList t
      else if b = byte '-' then readNumber true t
      else if isDigitByte b then readNumber false (b :: t)
      else if b = byte '"' then do
        let (text, rest) ← readString t
        .ok (.str text, rest)
      else if b = byte '[' then
        if depth ≤ 1 then failAt .nestedTooDeep (b :: t)
        else readItems fuel (depth - 1) [] t
      else if b = byte '\x7b' then
        if depth ≤ 1 then failAt .nestedTooDeep (b :: t)
        else readMembers fuel (depth - 1) [] t
      else failAt .expectedValue (b :: t)

/-- The items of an array from an item or the closing bracket on; those read so far come last one
first. -/
def readItems (fuel depth : Nat) (acc : List Json) (s : Bytes) : Except Fault (Json × Bytes) :=
  match fuel with
  | 0 => failBefore .endInArray s
  | fuel + 1 =>
    match skipSpace s with
    | [] => failAt .endInArray []
    | b :: t =>
      if b = byte ']' then .ok (.arr acc.reverse, t)
      else if acc.isEmpty then do
        let (item, rest) ← readValue fuel depth (b :: t)
        readItems fuel depth [item] rest
      else if b = byte ',' then
        match skipSpace t with
        | [] => failAt .endInValue []
        | c :: u =>
          if c = byte ']' then failAt .trailingComma (c :: u)
          else do
            let (item, rest) ← readValue fuel depth (c :: u)
            readItems fuel depth (item :: acc) rest
      else failAt .expectedCommaOrArrayEnd (b :: t)

/-- The members of an object from a key or the closing brace on. -/
def readMembers (fuel depth : Nat) (acc : Members) (s : Bytes) : Except Fault (Json × Bytes) :=
  match fuel with
  | 0 => failBefore .endInObject s
  | fuel + 1 =>
    match skipSpace s with
    | [] => failAt .endInObject []
    | b :: t =>
      if b = byte '\x7d' then .ok (.obj acc, t)
      else if acc.isEmpty then
        if b = byte '"' then readMember fuel depth acc t
        else failAt .keyNotString (b :: t)
      else if b = byte ',' then
        match skipSpace t with
        | [] => failAt .endInValue []
        | c :: u =>
          if c = byte '"' then readMember fuel depth acc u
          else if c = byte '\x7d' then failAt .trailingComma (c :: u)
          else failAt .keyNotString (c :: u)
      else failAt .expectedCommaOrObjectEnd (b :: t)

/-- A member after the opening quote of its key, and the members after it. -/
def readMember (fuel depth : Nat) (acc : Members) (s : Bytes) : Except Fault (Json × Bytes) :=
  match fuel with
  | 0 => failBefore .endInObject s
  | fuel + 1 => do
    let (key, rest) ← readString s
    match skipSpace rest with
    | [] => failAt .endInObject []
    | b :: t =>
      if b = byte ':' then do
        let (value, rest) ← readValue fuel depth t
        readMembers fuel depth (acc.put key value) rest
      else failAt .expectedColon (b :: t)

end

/-- One value with nothing but spaces around it. -/
def readWhole (limit : Nat) (s : Bytes) : Except Fault Json := do
  let (value, rest) ← readValue (2 * s.length + 2) limit s
  match skipSpace rest with
  | [] => .ok value
  | b :: t => failAt .trailingCharacters (b :: t)

/-- The line and the column behind the first bytes of a text. -/
def position (before : Bytes) : Nat × Nat :=
  (1 + before.count 0x0A, (before.reverse.takeWhile (· != 0x0A)).length)

/-- The value that the bytes of a text stand for. -/
def read (limit : Nat) (s : Bytes) : Except SyntaxError Json :=
  match readWhole limit s with
  | .ok value => .ok value
  | .error fault =>
    let (line, column) := position (s.take (s.length - fault.left))
    .error ⟨fault.reason, line, column⟩

/-- The nesting limit of the texts that are read from outside. -/
def nestingLimit : Nat := 128

/-- The value that a text stands for. -/
def readText (s : String) : Except SyntaxError Json :=
  read nestingLimit (Text.Utf8.encode s)

end DiagramScene.Json
