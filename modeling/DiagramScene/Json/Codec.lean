import DiagramScene.Json.Printer
import DiagramScene.Text.Quoted

/-!
# Codecs

A `Codec` reads a type from JSON values and writes it as one.  Records are described by a
`Schema`, a table of their fields, and both directions follow from the table: a record is read by
folding the members of an object into a start value, and written field by field.

Reading stops at the first error.  Members are read in the order in which they stand; a required
field that is missing is noticed after them, in the order of the table.
-/

namespace DiagramScene.Json

/-- What a reader wanted in the place of a value. -/
inductive Wanted where
  | float
  | int64
  | uint32
  | uint8
  | size
  | bool
  | text
  | array
  | object
  | pair
  | enumeration
  | unit
  | variantTag
  | tagged (name : String)
  | record (name : String)
  deriving DecidableEq, Repr

/-- The wording of what was wanted. -/
def Wanted.message : Wanted → String
  | float => "f64"
  | int64 => "i64"
  | uint32 => "u32"
  | uint8 => "u8"
  | size => "usize"
  | bool => "a boolean"
  | text => "a string"
  | array => "a sequence"
  | object => "a map"
  | pair => "an array of length 2"
  | enumeration => "string or map"
  | unit => "unit"
  | variantTag => "variant identifier"
  | tagged name => s!"internally tagged enum {name}"
  | record name => s!"struct {name}"

/-- Why a value could not be read. -/
inductive DecodeError where
  /-- The value is of another type. -/
  | invalidType (found : Json) (wanted : Wanted)
  /-- The integer is out of the range of its type. -/
  | outOfRange (found : Int) (wanted : Wanted)
  | missingField (name : String)
  | unknownField (name : String) (known : List String)
  | unknownVariant (name : String) (known : List String)
  /-- The array has too few items for a pair. -/
  | shortPair (length : Nat)
  /-- The array has no item for the field at a place in a record with so many fields. -/
  | shortRecord (place : Nat) (name : String) (fields : Nat)
  /-- The array has more items than can be read. -/
  | longArray (length : Nat)
  /-- The array has more items than the record has fields, inside of a value that was set aside
  until its type was known. -/
  | longSequence (length : Nat) (fields : Nat)
  /-- A named value is given by an object with no or with several members. -/
  | notSingleMember
  /-- The type of an element is not named by a string. -/
  | typeNotText (found : Json)
  deriving Repr

/-- The wording of a value that is of the wrong type. -/
def foundText : Json → String
  | null => "null"
  | bool b => if b then "boolean `true`" else "boolean `false`"
  | num (.int n) => s!"integer `{n}`"
  | num (.float x) => s!"floating point `{Number.exchangeText x}`"
  | str s => s!"string {Text.quoted s}"
  | arr _ => "sequence"
  | obj _ => "map"

/-- A choice among names. -/
def oneOf (names : List String) : String :=
  let ticked := names.map fun name => s!"`{name}`"
  match ticked with
  | [a] => a
  | [a, b] => s!"{a} or {b}"
  | _ => "one of " ++ ", ".intercalate ticked

/-- The wording of a decoding error. -/
def DecodeError.message : DecodeError → String
  | invalidType found wanted => s!"invalid type: {foundText found}, expected {wanted.message}"
  | outOfRange found wanted => s!"invalid value: integer `{found}`, expected {wanted.message}"
  | missingField name => s!"missing field `{name}`"
  | unknownField name known => s!"unknown field `{name}`, expected {oneOf known}"
  | unknownVariant name known => s!"unknown variant `{name}`, expected {oneOf known}"
  | shortPair length => s!"invalid length {length}, expected an array of length 2"
  | shortRecord place name fields =>
    let elements := if fields = 1 then "element" else "elements"
    s!"invalid length {place}, expected struct {name} with {fields} {elements}"
  | longArray length => s!"invalid length {length}, expected fewer elements in array"
  | longSequence length fields =>
    let elements := if fields = 1 then "element" else "elements"
    s!"invalid length {length}, expected {fields} {elements} in sequence"
  | notSingleMember => "invalid value: map, expected map with a single key"
  | typeNotText found => s!"element `type` must be a string, got {compact found}"

/-- The result of reading a value. -/
abbrev Decoded (α : Type) := Except DecodeError α

/-- How a type is read from a JSON value and written as one. -/
structure Codec (α : Type) where
  decode : Json → Decoded α
  encode : α → Json

namespace Codec

/-- Floating point numbers; integers are accepted as well. -/
def float : Codec Float where
  decode
    | num n => .ok n.toFloat
    | j => .error (.invalidType j .float)
  encode := Json.finite

/-- Reads an integer within bounds. -/
def decodeInt (low high : Int) (wanted : Wanted) : Json → Decoded Int
  | num (.int n) => if low ≤ n ∧ n ≤ high then .ok n else .error (.outOfRange n wanted)
  | j => .error (.invalidType j wanted)

/-- Signed 64-bit integers. -/
def int64 : Codec Int64 where
  decode j := (decodeInt (-0x8000000000000000) 0x7fffffffffffffff .int64 j).map Int64.ofInt
  encode n := int n.toInt

/-- Unsigned 32-bit integers. -/
def uint32 : Codec UInt32 where
  decode j := (decodeInt 0 0xffffffff .uint32 j).map fun n => UInt32.ofNat n.toNat
  encode n := nat n.toNat

/-- Unsigned 8-bit integers. -/
def uint8 : Codec UInt8 where
  decode j := (decodeInt 0 0xff .uint8 j).map fun n => UInt8.ofNat n.toNat
  encode n := nat n.toNat

/-- Counts of up to 64 bits. -/
def size : Codec Nat where
  decode j := (decodeInt 0 0xffffffffffffffff .size j).map Int.toNat
  encode := nat

/-- Truth values. -/
def bool : Codec Bool where
  decode
    | .bool b => .ok b
    | j => .error (.invalidType j .bool)
  encode := Json.bool

/-- Strings. -/
def text : Codec String where
  decode
    | str s => .ok s
    | j => .error (.invalidType j .text)
  encode := str

/-- Objects as they are. -/
def members : Codec Members where
  decode
    | obj ms => .ok ms
    | j => .error (.invalidType j .object)
  encode := obj

/-- Lists. -/
def list {α : Type} (item : Codec α) : Codec (List α) where
  decode
    | arr xs => xs.mapM item.decode
    | j => .error (.invalidType j .array)
  encode xs := arr (xs.map item.encode)

/-- Values that may be absent, written as null. -/
def option {α : Type} (value : Codec α) : Codec (Option α) where
  decode
    | null => .ok none
    | j => (value.decode j).map some
  encode := Json.option value.encode

/-- The codec of a type that stands for another one. -/
def via {α β : Type} (c : Codec α) (into : α → β) (from_ : β → α) : Codec β where
  decode j := (c.decode j).map into
  encode b := c.encode (from_ b)

/-- Two numbers in an array. -/
def floatPair : Codec (Float × Float) where
  decode
    | arr xs => do
      let a ← first xs
      let b ← second xs
      if 2 < xs.length then .error (.longArray xs.length) else .ok (a, b)
    | j => .error (.invalidType j .pair)
  encode p := arr [float.encode p.1, float.encode p.2]
where
  /-- The first number of the array. -/
  first : List Json → Decoded Float
    | x :: _ => float.decode x
    | [] => .error (.shortPair 0)
  /-- The second number of the array. -/
  second : List Json → Decoded Float
    | _ :: y :: _ => float.decode y
    | xs => .error (.shortPair xs.length)

/-- The value with a name. -/
def valueNamed {α : Type} (values : List (String × α)) (name : String) : Decoded α :=
  match values.lookup name with
  | some a => .ok a
  | none => .error (.unknownVariant name (values.map (·.1)))

/-- Values that are named by a string, or by the one key of an object whose value adds nothing. -/
def namedBy {α : Type} (addsNothing : Json → Bool) (values : List (String × α))
    (nameOf : α → String) : Codec α where
  decode
    | str s => valueNamed values s
    | obj [(name, content)] => do
      let a ← valueNamed values name
      if addsNothing content then .ok a else .error (.invalidType content .unit)
    | obj _ => .error .notSingleMember
    | j => .error (.invalidType j .enumeration)
  encode a := str (nameOf a)

/-- Values that are named by a string, or by the one key of an object whose value is null. -/
def named {α : Type} (values : List (String × α)) (nameOf : α → String) : Codec α :=
  namedBy Json.isNull values nameOf

/-- Values with names, inside of a value that was set aside until its type was known.  There an
empty object adds nothing either. -/
def namedAside {α : Type} (values : List (String × α)) (nameOf : α → String) : Codec α :=
  namedBy (fun j => j.isNull || j.isEmptyObject) values nameOf

end Codec

/-! ### Records -/

/-- What an absent field means. -/
inductive Absence where
  /-- The field keeps its start value. -/
  | default
  /-- The field keeps its start value in an object; an array has to hold it. -/
  | defaultInObject
  /-- The field has to be there. -/
  | error
  deriving DecidableEq, Repr

/-- A field of a record: how a value is read into the record, and how it is written, if it is. -/
structure Field (σ : Type) where
  key : String
  absence : Absence
  read : Json → σ → Decoded σ
  write : σ → Option Json

namespace Field

variable {σ α : Type}

/-- A field with a default that is always written. -/
def default (key : String) (c : Codec α) (get : σ → α) (set : α → σ → σ) : Field σ where
  key := key
  absence := .default
  read j s := (c.decode j).map (set · s)
  write s := some (c.encode (get s))

/-- A field that has to be there. -/
def required (key : String) (c : Codec α) (get : σ → α) (set : α → σ → σ) : Field σ where
  key := key
  absence := .error
  read j s := (c.decode j).map (set · s)
  write s := some (c.encode (get s))

/-- A field whose value may be absent, written as null. -/
def nullable (key : String) (c : Codec α) (get : σ → Option α) (set : Option α → σ → σ) :
    Field σ where
  key := key
  absence := .defaultInObject
  read j s := (c.option.decode j).map (set · s)
  write s := some (c.option.encode (get s))

/-- A field whose value may be absent and is then not written. -/
def omitted (key : String) (c : Codec α) (get : σ → Option α) (set : Option α → σ → σ) :
    Field σ where
  key := key
  absence := .default
  read j s := (c.option.decode j).map (set · s)
  write s := (get s).map c.encode

/-- A field whose value may be absent and is then not written; an array has to hold it. -/
def omittedInObject (key : String) (c : Codec α) (get : σ → Option α)
    (set : Option α → σ → σ) : Field σ :=
  { omitted key c get set with absence := .defaultInObject }

/-- A field with a default whose value may be absent, written as null. -/
def optional (key : String) (c : Codec α) (get : σ → Option α) (set : Option α → σ → σ) :
    Field σ :=
  default key c.option get set

end Field

/-- What happens to the members of an object that are no fields. -/
inductive Unknown (σ : Type) where
  /-- They are dropped. -/
  | ignore
  /-- They are an error. -/
  | refuse
  /-- They are kept beside the fields; only an object can be read then. -/
  | keep (get : σ → Members) (set : Members → σ → σ)

/-- The table of a record type. -/
structure Schema (σ : Type) where
  name : String
  start : σ
  fields : List (Field σ)
  unknown : Unknown σ

namespace Schema

variable {σ : Type}

/-- The keys of the fields, in the order of the table. -/
def keys (schema : Schema σ) : List String :=
  schema.fields.map (·.key)

/-- The field with a key. -/
def field? (schema : Schema σ) (key : String) : Option (Field σ) :=
  schema.fields.find? (·.key == key)

/-- The first field that has to be in an object and is not. -/
def missing? (schema : Schema σ) (ms : Members) : Option String :=
  (schema.fields.find? fun f => f.absence == .error && !ms.contains f.key).map (·.key)

/-- Reads one member into the record. -/
def readMember (schema : Schema σ) (s : σ) (key : String) (value : Json) : Decoded σ :=
  match schema.field? key with
  | some f => f.read value s
  | none => match schema.unknown with
    | .ignore => .ok s
    | .refuse => .error (.unknownField key schema.keys)
    | .keep get set => .ok (set (get s ++ [(key, value)]) s)

/-- Reads a record from the members of an object. -/
def decodeMembers (schema : Schema σ) (ms : Members) : Decoded σ := do
  let s ← ms.foldlM (fun s m => schema.readMember s m.1 m.2) schema.start
  match schema.missing? ms with
  | some key => .error (.missingField key)
  | none => .ok s

/-- Reads a record from the items of an array, which stand for the fields in order.  Where the items
end, fields with a default are passed over; the place of the first other field is that of the error.
-/
def decodeItems (schema : Schema σ) (items : List Json) : Decoded σ := do
  let s ← go 0 schema.fields items schema.start
  if schema.fields.length < items.length then .error (.longArray items.length) else .ok s
where
  /-- Reads one item for each field, from the field at a place on. -/
  go : Nat → List (Field σ) → List Json → σ → Decoded σ
    | _, [], _, s => .ok s
    | place, f :: fs, x :: xs, s => do go (place + 1) fs xs (← f.read x s)
    | place, f :: fs, [], s =>
      if f.absence = .default then go (place + 1) fs [] s
      else .error (.shortRecord place schema.name schema.fields.length)

/-- Reads a record. -/
def decode (schema : Schema σ) : Json → Decoded σ
  | obj ms => schema.decodeMembers ms
  | arr xs => match schema.unknown with
    | .keep _ _ => .error (.invalidType (arr xs) (.record schema.name))
    | _ => schema.decodeItems xs
  | j => .error (.invalidType j (.record schema.name))

/-- Reads a record inside of a value that was set aside until its type was known. -/
def decodeAside (schema : Schema σ) (j : Json) : Decoded σ :=
  match schema.decode j with
  | .error (.longArray length) => .error (.longSequence length schema.fields.length)
  | d => d

/-- The members of a record. -/
def encodeMembers (schema : Schema σ) (s : σ) : Members :=
  let known := schema.fields.filterMap fun f => (f.write s).map fun j => (f.key, j)
  match schema.unknown with
  | .keep get _ => known ++ get s
  | _ => known

/-- The codec that a table describes. -/
def codec (schema : Schema σ) : Codec σ where
  decode := schema.decode
  encode s := obj (schema.encodeMembers s)

end Schema

end DiagramScene.Json
