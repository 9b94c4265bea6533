import DiagramScene.Geometry.Primitive

/-!
# Elements

An `Element` is one positioned item of a scene: attributes that every element has, a kind with the
attributes of its own, and members that no attribute claims.  `Element.primitive` is its geometry.
The coordinates are scalars, so that the geometry of a scene can be studied in exact arithmetic.
-/

namespace DiagramScene

/-- How the corners of a box are rounded. -/
structure Roundness (α : Type) where
  kind : UInt8
  value : Option α
  deriving BEq, Repr

namespace Roundness

variable {α : Type}

/-- Corners of the oldest scenes, in proportion to the size. -/
def legacyKind : UInt8 := 1

/-- Corners in proportion to the size. -/
def proportionalKind : UInt8 := 2

/-- Corners of a fixed radius where the size allows it. -/
def adaptiveKind : UInt8 := 3

/-- Corners in proportion to the size. -/
def proportional : Roundness α := ⟨proportionalKind, none⟩

/-- Corners of the usual fixed radius. -/
def adaptive : Roundness α := ⟨adaptiveKind, none⟩

end Roundness

/-- What may be attached to an element. -/
inductive BoundKind where
  | text
  | arrow
  deriving BEq, DecidableEq, Repr

/-- A reference to something that is attached to an element. -/
structure BoundElement where
  id : String
  kind : BoundKind
  deriving BEq, DecidableEq, Repr

/-- A label that a shape carries until it is made an element of its own. -/
structure InlineLabel (α : Type) where
  text : String
  fontSize : Option α
  strokeColor : Option String
  groupIds : Option (List String)
  extra : Members
  deriving BEq, Repr

/-- What a layout notes about an element. -/
structure Metadata where
  classId : Option String
  extra : Members
  deriving BEq, Repr

/-- The attributes of a text. -/
structure TextContent (α : Type) where
  text : String
  fontSize : α
  fontFamily : UInt32
  textAlign : String
  verticalAlign : String
  baseline : α
  containerId : Option String
  originalText : String
  lineHeight : α
  deriving BEq, Repr

/-- Where an end of a line is attached. -/
structure PointBinding (α : Type) where
  elementId : Option String
  focus : α
  gap : α
  deriving BEq, Repr

/-- The attributes of a line or an arrow; points are relative to the element's place. -/
structure LinearPath (α : Type) where
  points : List (α × α)
  lastCommittedPoint : Option (α × α)
  startBinding : Option (PointBinding α)
  endBinding : Option (PointBinding α)
  startArrowhead : Option String
  endArrowhead : Option String
  deriving BEq, Repr

/-- The attributes of a freehand stroke; points are relative to the element's place. -/
structure Stroke (α : Type) where
  points : List (α × α)
  pressures : List α
  simulatePressure : Bool
  lastCommittedPoint : Option (α × α)
  deriving BEq, Repr

/-- The attributes of an image. -/
structure Picture (α : Type) where
  fileId : Option String
  status : String
  scale : α × α
  deriving BEq, Repr

/-- The attributes of a frame. -/
structure FrameTitle where
  name : Option String
  deriving BEq, Repr

/-- The kind of an element with the attributes of that kind. -/
inductive ElementKind (α : Type) where
  | rectangle
  | diamond
  | ellipse
  | line (path : LinearPath α)
  | arrow (path : LinearPath α)
  | freedraw (stroke : Stroke α)
  | text (content : TextContent α)
  | image (picture : Picture α)
  | frame (title : FrameTitle)
  | magicFrame (title : FrameTitle)
  | embeddable
  | iframe
  /-- A kind that is carried along without being understood. -/
  | other (name : String)
  deriving BEq, Repr

/-- One positioned item of a scene. -/
structure Element (α : Type) where
  id : String
  x : α
  y : α
  width : α
  height : α
  /-- The rotation about the middle of the element, in radians. -/
  angle : α
  strokeColor : String
  backgroundColor : String
  fillStyle : String
  strokeWidth : α
  strokeStyle : String
  roughness : α
  /-- The opacity in percent. -/
  opacity : α
  groupIds : List String
  frameId : Option String
  roundness : Option (Roundness α)
  seed : Int64
  version : Int64
  versionNonce : Int64
  isDeleted : Bool
  boundElements : Option (List BoundElement)
  updated : Int64
  link : Option String
  locked : Bool
  label : Option (InlineLabel α)
  metadata : Option Metadata
  kind : ElementKind α
  extra : Members
  deriving BEq, Repr

/-! ### Defaults -/

/-- The stroke color of an element without one. -/
def defaultStrokeColor : String := "#1e1e1e"

/-- The color that paints nothing. -/
def transparent : String := "transparent"

/-- The label without any text. -/
def InlineLabel.empty {α : Type} : InlineLabel α := ⟨"", none, none, none, []⟩

/-- Metadata that say nothing. -/
def Metadata.empty : Metadata := ⟨none, []⟩

/-- A frame without a title of its own. -/
def FrameTitle.empty : FrameTitle := ⟨none⟩

/-- A line without points. -/
def LinearPath.empty {α : Type} : LinearPath α := ⟨[], none, none, none, none, none⟩

/-- A line through points that ends in an arrowhead. -/
def LinearPath.arrow {α : Type} (points : List (α × α)) : LinearPath α :=
  { LinearPath.empty with points := points, endArrowhead := some "arrow" }

/-- A stroke without points. -/
def Stroke.empty {α : Type} : Stroke α := ⟨[], [], false, none⟩

namespace TextContent

variable {α : Type} [Scalar α]

/-- The font size of a text element without one. -/
def defaultFontSize : α := 20.0

/-- The text element without text. -/
def empty : TextContent α where
  text := ""
  fontSize := defaultFontSize
  fontFamily := 1
  textAlign := "left"
  verticalAlign := "top"
  baseline := 0.0
  containerId := none
  originalText := ""
  lineHeight := Measurer.defaultLineHeight

/-- The lines of the text. -/
def lines (t : TextContent α) : List (List Char) := Text.textLines t.text.toList

end TextContent

/-- An image that has not been loaded. -/
def Picture.empty {α : Type} [Scalar α] : Picture α := ⟨none, "pending", (1.0, 1.0)⟩

namespace ElementKind

variable {α : Type}

/-- The name of a kind. -/
def name : ElementKind α → String
  | rectangle => "rectangle"
  | diamond => "diamond"
  | ellipse => "ellipse"
  | line _ => "line"
  | arrow _ => "arrow"
  | freedraw _ => "freedraw"
  | text _ => "text"
  | image _ => "image"
  | frame _ => "frame"
  | magicFrame _ => "magicframe"
  | embeddable => "embeddable"
  | iframe => "iframe"
  | other name => name

/-- The attributes of a text. -/
def text? : ElementKind α → Option (TextContent α)
  | text t => some t
  | _ => none

end ElementKind

namespace Element

variable {α : Type} [Scalar α]

/-- The element of a kind with defaults for all else. -/
def ofKind (kind : ElementKind α) : Element α where
  id := ""
  x := 0.0
  y := 0.0
  width := 0.0
  height := 0.0
  angle := 0.0
  strokeColor := defaultStrokeColor
  backgroundColor := transparent
  fillStyle := "solid"
  strokeWidth := 2.0
  strokeStyle := "solid"
  roughness := 1.0
  opacity := 100.0
  groupIds := []
  frameId := none
  roundness := none
  seed := 0
  version := 1
  versionNonce := 0
  isDeleted := false
  boundElements := none
  updated := 0
  link := none
  locked := false
  label := none
  metadata := none
  kind := kind
  extra := []

/-- The name of the element's kind. -/
def typeName (e : Element α) : String := e.kind.name

/-- The element is a text. -/
def isText (e : Element α) : Bool := e.kind.text?.isSome

/-- The element that a text belongs to. -/
def containerId? (e : Element α) : Option String := e.kind.text?.bind (·.containerId)

/-- The class that the element stands for. -/
def classId? (e : Element α) : Option String := e.metadata.bind (·.classId)

/-- What is attached to the element. -/
def bound (e : Element α) : List BoundElement := e.boundElements.getD []

/-- The ids of what is attached to the element. -/
def boundIds (e : Element α) : List String := e.bound.map (·.id)

/-- The element with one more thing attached, after the others. -/
def attach (e : Element α) (b : BoundElement) : Element α :=
  { e with boundElements := some (e.bound ++ [b]) }

/-- The points of a path in scene coordinates.  A path without points stays at its place. -/
def absolutePoints (x y : α) (points : List (α × α)) : List (Point α) :=
  if points.isEmpty then [⟨x, y⟩]
  else points.map fun p => ⟨x + Scalar.finiteOrZero p.1, y + Scalar.finiteOrZero p.2⟩

/-- The geometry of the element in scene coordinates, without its rotation.  The place of a text
without a size is its upper edge, while a primitive text stands on its base line. -/
def primitive (e : Element α) : Primitive α :=
  let x := Scalar.finiteOrZero e.x
  let y := Scalar.finiteOrZero e.y
  match e.kind with
  | .rectangle | .diamond | .frame _ | .magicFrame _ | .embeddable | .iframe =>
    .rect x y e.width e.height
  | .image _ => .image x y e.width e.height
  | .ellipse =>
    .ellipse (x + e.width / 2.0) (y + e.height / 2.0) (e.width / 2.0) (e.height / 2.0)
  | .line path | .arrow path => .polyline (absolutePoints x y path.points)
  | .freedraw stroke => .polyline (absolutePoints x y stroke.points)
  | .text t =>
    if Scalar.lt 0.0 e.width || Scalar.lt 0.0 e.height then .rect x y e.width e.height
    else
      let height := Scalar.ofNat t.lines.length * t.fontSize * t.lineHeight
      .text x (y + Scalar.finiteOrZero height) t.text t.fontSize (some t.lineHeight)
  | .other name => .unknown name

end Element

end DiagramScene
