import DiagramScene.Element.Basic
import DiagramScene.Ids
import DiagramScene.Label.ClassBody

/-!
# Labels as elements

A shape may carry a label of its own, and a class may have one that was read from the diagram
text.  `materialize` gives each labeled shape a text element, right behind the shape and attached
to it, and takes the label off every shape.  The shapes keep their order.

The text on the shape itself wins over that of the class.  A shape that stands for a labeled class
has its text in its upper left corner, any other shape in its middle.
-/

namespace DiagramScene

variable {α σ : Type} [Scalar α]

/-- Where the text of a shape stands. -/
inductive Placement where
  /-- In the upper left corner, with some room to the edges. -/
  | classBody
  /-- In the middle. -/
  | centered
  deriving DecidableEq, Repr

namespace Placement

/-- The room between a text in the corner and the edges. -/
def cornerPadding : α := 8.0

/-- The font size of a text without one. -/
def fontSize : Placement → α
  | classBody => TextContent.defaultFontSize
  | centered => TextStyle.defaultFontSize

/-- How the text is aligned from side to side. -/
def textAlign : Placement → String
  | classBody => "left"
  | centered => "center"

/-- How the text is aligned from top to bottom. -/
def verticalAlign : Placement → String
  | classBody => "top"
  | centered => "middle"

end Placement

namespace Label

/-- The text that a shape carries, if it is not blank. -/
def inlineText? (shape : Element α) : Option String :=
  match shape.label with
  | none => none
  | some label =>
    let text := Text.trimmed label.text
    if text.isEmpty then none else some text

/-- The label of the class that a shape stands for, by its id or by its class. -/
def classText? (labels : ClassLabels) (shape : Element α) : Option String :=
  (labels.get? shape.id).or (shape.classId?.bind (Keyed.get? labels ·))

/-- The text of a shape. -/
def text? (labels : ClassLabels) (shape : Element α) : Option String :=
  (inlineText? shape).or (classText? labels shape)

/-- Where the text of a shape stands. -/
def placement (labels : ClassLabels) (shape : Element α) : Placement :=
  if (classText? labels shape).isSome then .classBody else .centered

/-- The font size of the text of a shape. -/
def fontSize (labels : ClassLabels) (shape : Element α) : α :=
  let own := (shape.label.bind (·.fontSize)).bind Scalar.positive?
  own.getD (placement labels shape).fontSize

/-- The box that a shape covers; the one that it states, if it cannot be measured. -/
def shapeBox (measurer : Measurer α) (shape : Element α) : Box α :=
  (shape.primitive.box? measurer).getD (Box.of shape.x shape.y shape.width shape.height)

/-- The upper left corner of a text of a size. -/
def corner (measurer : Measurer α) (shape : Element α) (size : Box α) : Placement → Point α
  | .classBody => ⟨shape.x + Placement.cornerPadding, shape.y + Placement.cornerPadding⟩
  | .centered =>
    let center := (shapeBox measurer shape).center
    ⟨center.x - size.width / 2.0, center.y - size.height / 2.0⟩

/-- The color of the text of a shape: its own, else that of the shape. -/
def strokeColor (shape : Element α) : String :=
  match shape.label.bind (·.strokeColor) with
  | some color => color
  | none => if shape.strokeColor.isEmpty then defaultStrokeColor else shape.strokeColor

/-- The text element of a shape, without what an id source gives it. -/
def textElement (measurer : Measurer α) (labels : ClassLabels) (shape : Element α)
    (text : String) : Element α :=
  let placed := placement labels shape
  let fontSize := fontSize labels shape
  let size := (Primitive.text 0.0 0.0 text fontSize none).box measurer
  let place := corner measurer shape size placed
  let content : TextContent α :=
    { text := text
      fontSize := fontSize
      fontFamily := 1
      textAlign := placed.textAlign
      verticalAlign := placed.verticalAlign
      baseline := fontSize
      containerId := some shape.id
      originalText := text
      lineHeight := measurer.lineHeight }
  { Element.ofKind (.text content) with
    x := place.x
    y := place.y
    width := size.width
    height := size.height
    angle := shape.angle
    strokeColor := strokeColor shape
    backgroundColor := transparent
    strokeWidth := 1.0
    roughness := 0.0
    opacity := shape.opacity
    groupIds := (shape.label.bind (·.groupIds)).getD shape.groupIds
    frameId := shape.frameId }

/-- The shape with an id of its own. -/
def named (source : IdSource σ) (shape : Element α) (s : σ) : Element α × σ :=
  if shape.id.isEmpty then
    let (id, s) := source.nextId s
    ({ shape with id := id }, s)
  else (shape, s)

/-- The element with a fresh id, fresh nonces and the time. -/
def stamped (source : IdSource σ) (e : Element α) (s : σ) : Element α × σ :=
  let (id, s) := source.nextId s
  let (seed, s) := source.nextNonce s
  let (nonce, s) := source.nextNonce s
  let (time, s) := source.now s
  ({ e with id := id, seed := seed, versionNonce := nonce, updated := time }, s)

/-- The shape without its label. -/
def bare (shape : Element α) : Element α := { shape with label := none }

/-- The elements that a shape becomes: the shape without its label and, if it has a text, that
text behind it. -/
def block (source : IdSource σ) (measurer : Measurer α) (labels : ClassLabels)
    (shape : Element α) (s : σ) : List (Element α) × σ :=
  let (shape, s) := named source shape s
  match text? labels shape with
  | none => ([bare shape], s)
  | some text =>
    let (label, s) := stamped source (textElement measurer labels shape text) s
    ([(bare shape).attach ⟨label.id, .text⟩, label], s)

end Label

/-- The shapes of a list, each followed by the text element of its label if it has one. -/
def materialize (source : IdSource σ) (measurer : Measurer α) (labels : ClassLabels) :
    List (Element α) → σ → List (Element α) × σ
  | [], s => ([], s)
  | shape :: shapes, s =>
    let (first, s) := Label.block source measurer labels shape s
    let (rest, s) := materialize source measurer labels shapes s
    (first ++ rest, s)

end DiagramScene
