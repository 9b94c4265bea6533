import DiagramScene.Json.Codec
import DiagramScene.Element.Basic

/-!
# Scene documents

A scene document describes boxes, ellipses, diamonds, texts and arrows by hand.  It may name style
presets and a grid that all coordinates keep to.  An arrow refers to the elements at its ends by
their ids.
-/

namespace DiagramScene.Dsl

open Json (Codec Schema Decoded DecodeError)

/-- The style attributes that an item sets; the others follow from the layers below. -/
structure StyleOverrides (α : Type) where
  strokeColor : Option String
  backgroundColor : Option String
  fillStyle : Option String
  strokeWidth : Option α
  strokeStyle : Option String
  roughness : Option α
  opacity : Option α
  deriving BEq, Repr

/-- What all items have. -/
structure Common (α : Type) where
  id : Option String
  /-- The name of a style preset. -/
  style : Option String
  styleOverrides : Option (StyleOverrides α)
  deriving BEq, Repr

/-- A box, an ellipse or a diamond. -/
structure ShapeSpec (α : Type) where
  common : Common α
  x : α
  y : α
  w : α
  h : α
  deriving BEq, Repr

/-- A text. -/
structure TextSpec (α : Type) where
  common : Common α
  x : α
  y : α
  text : String
  w : Option α
  h : Option α
  fontSize : α
  fontFamily : UInt32
  lineHeight : α
  padding : α
  textAlign : String
  verticalAlign : String
  deriving BEq, Repr

/-- Where on a box an arrow is attached. -/
inductive Side where
  | left
  | right
  | top
  | bottom
  | center
  deriving BEq, DecidableEq, Repr

/-- The end of an arrow. -/
structure Endpoint where
  /-- The id of the element at this end. -/
  reference : String
  side : Side
  deriving BEq, DecidableEq, Repr

/-- An arrow between two elements. -/
structure ArrowSpec (α : Type) where
  common : Common α
  start : Endpoint
  finish : Endpoint
  deriving BEq, Repr

/-- The kinds of shapes. -/
inductive ShapeKind where
  | box
  | ellipse
  | diamond
  deriving BEq, DecidableEq, Repr

/-- The name of a kind of shapes. -/
def ShapeKind.name : ShapeKind → String
  | box => "box"
  | ellipse => "ellipse"
  | diamond => "diamond"

/-- One item of a document. -/
inductive Item (α : Type) where
  | shape (kind : ShapeKind) (spec : ShapeSpec α)
  | text (spec : TextSpec α)
  | arrow (spec : ArrowSpec α)
  deriving BEq, Repr

namespace Item

variable {α : Type}

/-- The name of an item's type. -/
def typeName : Item α → String
  | shape kind _ => kind.name
  | text _ => "text"
  | arrow _ => "arrow"

/-- What the item has in common with all others. -/
def common : Item α → Common α
  | shape _ spec => spec.common
  | text spec => spec.common
  | arrow spec => spec.common

/-- The item is an arrow. -/
def isArrow : Item α → Bool
  | arrow _ => true
  | _ => false

end Item

/-- A scene document. -/
structure Document (α : Type) where
  /-- The distance of the lines that coordinates keep to, if they keep to any. -/
  grid : Option α
  styles : Keyed (StyleOverrides α)
  /-- Texts are as large as their text needs, whatever size they state. -/
  fitText : Bool
  items : List (Item α)
  deriving BEq, Repr

/-! ### Reading documents -/

/-- No style attribute is set. -/
def StyleOverrides.empty {α : Type} : StyleOverrides α :=
  ⟨none, none, none, none, none, none, none⟩

/-- The table of `StyleOverrides`. -/
def StyleOverrides.schema : Schema (StyleOverrides Float) where
  name := "StyleOverrides"
  start := .empty
  fields := [
    .nullable "strokeColor" .text (·.strokeColor) fun v s => { s with strokeColor := v },
    .nullable "backgroundColor" .text (·.backgroundColor)
      fun v s => { s with backgroundColor := v },
    .nullable "fillStyle" .text (·.fillStyle) fun v s => { s with fillStyle := v },
    .nullable "strokeWidth" .float (·.strokeWidth) fun v s => { s with strokeWidth := v },
    .nullable "strokeStyle" .text (·.strokeStyle) fun v s => { s with strokeStyle := v },
    .nullable "roughness" .float (·.roughness) fun v s => { s with roughness := v },
    .nullable "opacity" .float (·.opacity) fun v s => { s with opacity := v }]
  unknown := .refuse

/-- Nothing in common. -/
def Common.empty {α : Type} : Common α := ⟨none, none, none⟩

/-- The codec of a record inside of an item. -/
def asideCodec {σ : Type} (schema : Schema σ) : Codec σ where
  decode := schema.decodeAside
  encode := schema.codec.encode

/-- The table of `Common`. -/
def Common.schema : Schema (Common Float) where
  name := "Common"
  start := .empty
  fields := [
    .nullable "id" .text (·.id) fun v s => { s with id := v },
    .nullable "style" .text (·.style) fun v s => { s with style := v },
    .nullable "styleOverrides" (asideCodec StyleOverrides.schema) (·.styleOverrides)
      fun v s => { s with styleOverrides := v }]
  unknown := .ignore

/-- What is read of an item: its own attributes and the members that are left for the common ones.
-/
structure Unfinished (σ : Type) where
  own : σ
  rest : Members

/-- A field of the item's own attributes. -/
def ownField {σ : Type} (f : Json.Field σ) : Json.Field (Unfinished σ) where
  key := f.key
  absence := f.absence
  read j s := (f.read j s.own).map fun own => { s with own := own }
  write s := f.write s.own

/-- The table of an item's own attributes. -/
def ownSchema {σ : Type} (name : String) (start : σ) (fields : List (Json.Field σ)) :
    Schema (Unfinished σ) where
  name := name
  start := ⟨start, []⟩
  fields := fields.map ownField
  unknown := .keep (·.rest) fun v s => { s with rest := v }

/-- Reads an item: first its own attributes, then the common ones. -/
def decodeItem {σ : Type} (schema : Schema (Unfinished σ)) (set : Common Float → σ → σ) (j : Json) :
    Decoded σ := do
  let p ← schema.decode j
  let common ← Common.schema.decodeMembers p.rest
  .ok (set common p.own)

/-- The table of `ShapeSpec`. -/
def ShapeSpec.schema : Schema (Unfinished (ShapeSpec Float)) :=
  ownSchema "ShapeSpec" ⟨.empty, 0.0, 0.0, 0.0, 0.0⟩ [
    .required "x" .float (·.x) fun v s => { s with x := v },
    .required "y" .float (·.y) fun v s => { s with y := v },
    .required "w" .float (·.w) fun v s => { s with w := v },
    .required "h" .float (·.h) fun v s => { s with h := v }]

/-- A text of which nothing is stated. -/
def TextSpec.start {α : Type} [Scalar α] : TextSpec α where
  common := .empty
  x := 0.0
  y := 0.0
  text := ""
  w := none
  h := none
  fontSize := 20.0
  fontFamily := 1
  lineHeight := 1.25
  padding := 6.0
  textAlign := "center"
  verticalAlign := "middle"

/-- The table of `TextSpec`. -/
def TextSpec.schema : Schema (Unfinished (TextSpec Float)) :=
  ownSchema "TextSpec" .start [
    .default "x" .float (·.x) fun v s => { s with x := v },
    .default "y" .float (·.y) fun v s => { s with y := v },
    .default "text" .text (·.text) fun v s => { s with text := v },
    .nullable "w" .float (·.w) fun v s => { s with w := v },
    .nullable "h" .float (·.h) fun v s => { s with h := v },
    .default "fontSize" .float (·.fontSize) fun v s => { s with fontSize := v },
    .default "fontFamily" .uint32 (·.fontFamily) fun v s => { s with fontFamily := v },
    .default "lineHeight" .float (·.lineHeight) fun v s => { s with lineHeight := v },
    .default "padding" .float (·.padding) fun v s => { s with padding := v },
    .default "textAlign" .text (·.textAlign) fun v s => { s with textAlign := v },
    .default "verticalAlign" .text (·.verticalAlign) fun v s => { s with verticalAlign := v }]

/-- The names of the sides. -/
def Side.names : List (String × Side) :=
  [("left", .left), ("right", .right), ("top", .top), ("bottom", .bottom), ("center", .center)]

/-- The name of a side. -/
def Side.name : Side → String
  | left => "left"
  | right => "right"
  | top => "top"
  | bottom => "bottom"
  | center => "center"

/-- The table of `Endpoint`. -/
def Endpoint.schema : Schema Endpoint where
  name := "Endpoint"
  start := ⟨"", .center⟩
  fields := [
    .required "ref" .text (·.reference) fun v s => { s with reference := v },
    .default "side" (.namedAside Side.names Side.name) (·.side) fun v s => { s with side := v }]
  unknown := .ignore

/-- The table of `ArrowSpec`. -/
def ArrowSpec.schema : Schema (Unfinished (ArrowSpec Float)) :=
  ownSchema "ArrowSpec" ⟨.empty, ⟨"", .center⟩, ⟨"", .center⟩⟩ [
    .required "from" (asideCodec Endpoint.schema) (·.start) fun v s => { s with start := v },
    .required "to" (asideCodec Endpoint.schema) (·.finish) fun v s => { s with finish := v }]

namespace Item

/-- The names of the types of items, each with the reader of its attributes. -/
def readers : List (String × (Json → Decoded (Item Float))) :=
  let shapeReader (kind : ShapeKind) (j : Json) : Decoded (Item Float) :=
    (decodeItem ShapeSpec.schema (fun c s => { s with common := c }) j).map (.shape kind)
  [("box", shapeReader .box),
    ("ellipse", shapeReader .ellipse),
    ("diamond", shapeReader .diamond),
    ("text", fun j =>
      (decodeItem TextSpec.schema (fun c s => { s with common := c }) j).map .text),
    ("arrow", fun j =>
      (decodeItem ArrowSpec.schema (fun c s => { s with common := c }) j).map .arrow)]

/-- The reader of the type that a value names. -/
def readerOf : Json → Decoded (Json → Decoded (Item Float))
  | .str name => Codec.valueNamed readers name
  | j => .error (.invalidType j .variantTag)

/-- Reads an item.  Its type is looked up first, wherever it stands in the object. -/
def decode : Json → Decoded (Item Float)
  | .obj ms =>
    match Keyed.get? ms "type" with
    | none => .error (.missingField "type")
    | some tag => do
      let reader ← readerOf tag
      reader (.obj (Keyed.erase ms "type"))
  | .arr [] => .error (.missingField "type")
  | .arr (tag :: rest) => do
    let reader ← readerOf tag
    reader (.arr rest)
  | j => .error (.invalidType j (.tagged "DslElement"))

end Item

namespace Document

/-- The distance of the grid lines where a document does not state one. -/
def defaultGrid {α : Type} [Scalar α] : α := 10.0

/-- Reads the presets of a document. -/
def decodeStyles : Json → Decoded (Keyed (StyleOverrides Float))
  | .obj ms => ms.mapM fun m => (StyleOverrides.schema.decode m.2).map fun style => (m.1, style)
  | j => .error (.invalidType j .object)

/-- A field that is read and never written. -/
def readField {α : Type} (key : String) (absence : Json.Absence) (decode : Json → Decoded α)
    (set : α → Document Float → Document Float) : Json.Field (Document Float) where
  key := key
  absence := absence
  read j s := (decode j).map (set · s)
  write _ := none

/-- Reads the items of a document. -/
def decodeItems : Json → Decoded (List (Item Float))
  | .arr xs => xs.mapM Item.decode
  | j => .error (.invalidType j .array)

/-- The table of `Document`. -/
def schema : Schema (Document Float) where
  name := "DslDocument"
  start := ⟨some defaultGrid, [], false, []⟩
  fields := [
    readField "grid" .default Codec.float.option.decode fun v s => { s with grid := v },
    readField "styles" .default decodeStyles fun v s => { s with styles := v },
    readField "fitText" .default Codec.bool.decode fun v s => { s with fitText := v },
    readField "elements" .error decodeItems fun v s => { s with items := v }]
  unknown := .ignore

/-- Reads a document. -/
def decode (j : Json) : Decoded (Document Float) := schema.decode j

end Document

end DiagramScene.Dsl
