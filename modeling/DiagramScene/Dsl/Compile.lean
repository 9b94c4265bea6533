import DiagramScene.Dsl.Document
import DiagramScene.Ids

/-!
# Compiling scene documents

`Document.compile` turns the items of a document into elements, in the order of the document.  It
takes two passes.  The first makes the shapes and the texts and notes the box of each under its
id; the second makes the arrows, so that an arrow may refer to an item that stands behind it.  One
counter gives all ids and stamps.
-/

namespace DiagramScene.Dsl

variable {α : Type} [Scalar α]

/-- Why a document does not compile. -/
inductive CompileError where
  | invalidGrid
  | unknownStyle (name : String)
  | emptyText
  | unknownReference (id : String)
  deriving DecidableEq, Repr

/-- The wording of an error. -/
def CompileError.message : CompileError → String
  | invalidGrid => "grid must be a non-negative number"
  | unknownStyle name => s!"Unknown style preset '{name}'"
  | emptyText => "Text elements require a non-empty 'text'"
  | unknownReference id => s!"Arrow refs must point to existing elements (missing '{id}')"

/-! ### Styles -/

/-- The style attributes of an element. -/
structure Style (α : Type) where
  strokeColor : String
  backgroundColor : String
  fillStyle : String
  strokeWidth : α
  strokeStyle : String
  roughness : α
  opacity : α
  deriving BEq, Repr

namespace Style

/-- The style of a shape or an arrow that sets nothing. -/
def shapeDefault : Style α where
  strokeColor := defaultStrokeColor
  backgroundColor := transparent
  fillStyle := "solid"
  strokeWidth := 2.0
  strokeStyle := "solid"
  roughness := 1.0
  opacity := 100.0

/-- The style of a text. -/
def textDefault : Style α := { shapeDefault with strokeWidth := 1.0, roughness := 0.0 }

/-- The style with the attributes that a layer above it sets. -/
def overlay (style : Style α) (layer : StyleOverrides α) : Style α where
  strokeColor := layer.strokeColor.getD style.strokeColor
  backgroundColor := layer.backgroundColor.getD style.backgroundColor
  fillStyle := layer.fillStyle.getD style.fillStyle
  strokeWidth := layer.strokeWidth.getD style.strokeWidth
  strokeStyle := layer.strokeStyle.getD style.strokeStyle
  roughness := layer.roughness.getD style.roughness
  opacity := layer.opacity.getD style.opacity

/-- The element with the style. -/
def applyTo (style : Style α) (e : Element α) : Element α :=
  { e with
    strokeColor := style.strokeColor
    backgroundColor := style.backgroundColor
    fillStyle := style.fillStyle
    strokeWidth := style.strokeWidth
    strokeStyle := style.strokeStyle
    roughness := style.roughness
    opacity := style.opacity }

/-- The style of an item: the defaults, below its preset, below what it sets itself. -/
def of (presets : Keyed (StyleOverrides α)) (common : Common α) :
    Except CompileError (Style α) := do
  let style ← match common.style with
    | none => .ok shapeDefault
    | some name => match presets.get? name with
      | none => .error (.unknownStyle name)
      | some preset => .ok (shapeDefault.overlay preset)
  match common.styleOverrides with
  | none => .ok style
  | some overrides => .ok (style.overlay overrides)

end Style

/-! ### Geometry -/

/-- The width and the height of a text with room around it. -/
def textSize (text : String) (fontSize lineHeight padding : α) : α × α :=
  let lines := Text.lines text.toList
  let count := Nat.max lines.length 1
  (Scalar.ofNat (Measurer.longest lines) * fontSize * 0.6 + padding * 2.0,
    Scalar.ofNat count * fontSize * lineHeight + padding * 2.0)

/-- The point of a box at which an arrow is attached. -/
def anchor (box : Box α) : Side → Point α
  | .left => ⟨box.x, box.y + box.height / 2.0⟩
  | .right => ⟨box.maxX, box.y + box.height / 2.0⟩
  | .top => ⟨box.x + box.width / 2.0, box.y⟩
  | .bottom => ⟨box.x + box.width / 2.0, box.maxY⟩
  | .center => box.center

/-- The grid line next to a coordinate; without a grid the coordinate itself. -/
def snap (grid v : α) : α :=
  if Scalar.eq grid 0.0 then v else Scalar.roundEven (v / grid) * grid

/-! ### Items -/

/-- What compiling has to know of the document as a whole. -/
structure Settings (α : Type) where
  /-- The distance of the grid lines, or zero. -/
  grid : α
  presets : Keyed (StyleOverrides α)
  fitText : Bool

/-- What compiling notes as it goes on. -/
structure Progress (α : Type) where
  counter : Counter
  /-- The boxes of the elements made so far, by id. -/
  boxes : Keyed (Box α)

namespace Progress

/-- The id of an item: the one that it states, or a new one. -/
def idFor (p : Progress α) (common : Common α) (kind : String) : String × Progress α :=
  match common.id with
  | some id => (id, p)
  | none =>
    let (id, counter) := p.counter.nextId kind
    (id, { p with counter := counter })

/-- The element with seed, nonce and time from the counter. -/
def stamp (p : Progress α) (e : Element α) : Element α × Progress α :=
  let (time, counter) := p.counter.nextTime
  ({ e with
      seed := p.counter.seed, version := 1, versionNonce := p.counter.nonce, updated := time },
    { p with counter := counter })

/-- Notes the box of an element. -/
def note (p : Progress α) (e : Element α) : Progress α :=
  { p with boxes := p.boxes.put e.id (Box.of e.x e.y e.width e.height) }

end Progress

/-- The kind of the element that a shape becomes. -/
def ShapeKind.element : ShapeKind → ElementKind α
  | box => .rectangle
  | ellipse => .ellipse
  | diamond => .diamond

/-- The corners of the element that a shape becomes. -/
def ShapeKind.roundness : ShapeKind → Roundness α
  | box => .adaptive
  | ellipse | diamond => .proportional

/-- The element of a shape. -/
def compileShape (settings : Settings α) (kind : ShapeKind) (spec : ShapeSpec α)
    (p : Progress α) : Except CompileError (Element α × Progress α) := do
  let (id, p) := p.idFor spec.common kind.name
  let style ← Style.of settings.presets spec.common
  let snap := snap settings.grid
  let shape := { Element.ofKind kind.element with
    id := id, x := snap spec.x, y := snap spec.y, width := snap spec.w, height := snap spec.h,
    roundness := some kind.roundness }
  let (e, p) := p.stamp (style.applyTo shape)
  .ok (e, p.note e)

/-- The element of a text. -/
def compileText (settings : Settings α) (spec : TextSpec α) (p : Progress α) :
    Except CompileError (Element α × Progress α) :=
  let (id, p) := p.idFor spec.common "text"
  if spec.text.isEmpty then .error .emptyText
  else
    let needed := textSize spec.text spec.fontSize spec.lineHeight spec.padding
    let width := if settings.fitText then needed.1 else spec.w.getD needed.1
    let height := if settings.fitText then needed.2 else spec.h.getD needed.2
    let snap := snap settings.grid
    let content : TextContent α :=
      { text := spec.text
        fontSize := spec.fontSize
        fontFamily := spec.fontFamily
        textAlign := spec.textAlign
        verticalAlign := spec.verticalAlign
        baseline := Scalar.truncate (snap height - spec.padding)
        containerId := none
        originalText := spec.text
        lineHeight := spec.lineHeight }
    let text := { Element.ofKind (.text content) with
      id := id, x := snap spec.x, y := snap spec.y, width := snap width, height := snap height }
    let (e, p) := p.stamp (Style.textDefault.applyTo text)
    .ok (e, p.note e)

/-- The point that an end of an arrow is attached to. -/
def endpoint (p : Progress α) (e : Endpoint) : Except CompileError (Point α) :=
  match p.boxes.get? e.reference with
  | none => .error (.unknownReference e.reference)
  | some box => .ok (anchor box e.side)

/-- The element of an arrow. -/
def compileArrow (settings : Settings α) (spec : ArrowSpec α) (p : Progress α) :
    Except CompileError (Element α × Progress α) := do
  let (id, p) := p.idFor spec.common "arrow"
  let start ← endpoint p spec.start
  let finish ← endpoint p spec.finish
  let snap := snap settings.grid
  let x := snap start.x
  let y := snap start.y
  let dx := snap finish.x - x
  let dy := snap finish.y - y
  let style ← Style.of settings.presets spec.common
  let arrow := { Element.ofKind (.arrow (.arrow [(0.0, 0.0), (dx, dy)])) with
    id := id, x := x, y := y, width := dx, height := dy, roughness := 1.0,
    roundness := some .proportional }
  .ok (p.stamp (style.applyTo arrow))

/-! ### Documents -/

/-- The first pass: the elements of all items but the arrows. -/
def compileShapes (settings : Settings α) :
    List (Item α) → Progress α →
      Except CompileError (List (Item α × Option (Element α)) × Progress α)
  | [], p => .ok ([], p)
  | item :: items, p => do
    let (e, p) ← match item with
      | .shape kind spec => (compileShape settings kind spec p).map fun (e, p) => (some e, p)
      | .text spec => (compileText settings spec p).map fun (e, p) => (some e, p)
      | .arrow _ => .ok (none, p)
    let (rest, p) ← compileShapes settings items p
    .ok ((item, e) :: rest, p)

/-- The second pass: the arrows between the other elements. -/
def compileArrows (settings : Settings α) :
    List (Item α × Option (Element α)) → Progress α → Except CompileError (List (Element α))
  | [], _ => .ok []
  | (_, some e) :: rest, p => do
    .ok (e :: (← compileArrows settings rest p))
  | (.arrow spec, none) :: rest, p => do
    let (e, p) ← compileArrow settings spec p
    .ok (e :: (← compileArrows settings rest p))
  | (_, none) :: rest, p => compileArrows settings rest p

namespace Document

/-- The grid of a document as a distance; zero where there is none. -/
def gridDistance (doc : Document α) : α := doc.grid.getD 0.0

/-- A distance of grid lines that can be used. -/
def isUsableGrid (grid : α) : Bool := Scalar.isFinite grid && !Scalar.lt grid 0.0

/-- The elements of a document.  Times are counted from `start`, in milliseconds. -/
def compile (doc : Document α) (start : Int64) : Except CompileError (List (Element α)) :=
  if !isUsableGrid doc.gridDistance then .error .invalidGrid
  else do
    let settings : Settings α := ⟨doc.gridDistance, doc.styles, doc.fitText⟩
    let (made, p) ← compileShapes settings doc.items ⟨.ofStart start, []⟩
    compileArrows settings made p

end Document

/-- Why a text or a value gives no elements. -/
inductive Error where
  | invalid (error : Json.DecodeError)
  | compile (error : CompileError)
  deriving Repr

/-- The wording of an error. -/
def Error.message : Error → String
  | invalid error => s!"invalid DSL document: {error.message}"
  | compile error => error.message

/-- The elements of the document that a value describes. -/
def compileJson (j : Json) (start : Int64) : Except Error (List (Element Float)) :=
  match Document.decode j with
  | .error e => .error (.invalid e)
  | .ok doc => (doc.compile start).mapError .compile

end DiagramScene.Dsl
