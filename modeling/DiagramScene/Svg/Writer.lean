import DiagramScene.Diagnostics
import DiagramScene.Scene.Basic
import DiagramScene.Svg.Arrowhead
import DiagramScene.Svg.Markup
import DiagramScene.Svg.Outline

/-!
# Drawing scenes as SVG documents

Each element that is not deleted becomes a `Fragment`: the nodes that draw it, the fill patterns
that it brings along, and diagnostics for what is left out.  A fragment depends on nothing but the
element, the files of the scene and the number of patterns before it.  `document` puts the
fragments together, patterns first.
-/

namespace DiagramScene.Svg

/-! ### Texts of attributes -/

/-- Two coordinates with a comma between them. -/
def pointText (p : Point Float) : String :=
  numberText p.x ++ "," ++ numberText p.y

/-- The points of a polygon. -/
def pointsText (points : List (Point Float)) : String :=
  " ".intercalate (points.map pointText)

/-- One step of a path. -/
def stepText : PathStep Float → String
  | .move p => "M" ++ pointText p
  | .line p => "L" ++ pointText p
  | .curve c d p => "C" ++ pointText c ++ " " ++ pointText d ++ " " ++ pointText p

/-- The data of a path. -/
def pathText (steps : List (PathStep Float)) : String :=
  " ".intercalate (steps.map stepText)

/-- The attributes of a rectangle's place and size. -/
def placeAttributes (x y width height : Float) : List Attribute :=
  [("x", numberText x), ("y", numberText y), ("width", numberText width),
    ("height", numberText height)]

/-- The fonts of a font family. -/
def fontFamily (id : UInt32) : String :=
  match id.toNat with
  | 1 => "Virgil, Excalifont, sans-serif"
  | 2 => "Helvetica, Arial, sans-serif"
  | 3 => "Cascadia Code, Cascadia Mono, monospace"
  | 5 => "Excalifont, Virgil, sans-serif"
  | 6 => "Nunito, sans-serif"
  | 7 => "Lilita One, sans-serif"
  | 8 => "Comic Shanns, monospace"
  | 9 => "Liberation Sans, Arial, sans-serif"
  | _ => "sans-serif"

/-! ### Paint -/

/-- Two texts agree but for the case of ASCII letters. -/
def sameWord (a b : String) : Bool := a.map Char.toLower == b.map Char.toLower

/-- The color paints something. -/
def isVisibleColor (color : String) : Bool :=
  let color := Text.trimmed color
  !color.isEmpty && !sameWord color transparent && !sameWord color "none"

/-- The lengths of dashes and of the gaps between them. -/
def dashes? (strokeStyle : String) (strokeWidth : Float) : Option (Float × Float) :=
  match strokeStyle with
  | "dashed" => some (8.0, 8.0 + Scalar.nonneg strokeWidth)
  | "dotted" => some (1.5, 6.0 + Scalar.nonneg strokeWidth)
  | _ => none

/-- The opacity and the rotation of an element. -/
def elementAttributes (e : Element Float) : List Attribute :=
  let share := e.opacity / 100.0
  let opacity := if share < 0.0 then 0.0 else if 1.0 < share then 1.0 else share
  let faded := if opacity < 1.0 then [("opacity", numberText opacity)] else []
  let turned :=
    if e.angle != 0.0 && e.angle.isFinite then
      let angle := numberText (Arrowhead.degrees e.angle)
      let x := numberText (e.x + e.width / 2.0)
      let y := numberText (e.y + e.height / 2.0)
      [("transform", s!"rotate({angle} {x} {y})")]
    else []
  faded ++ turned

/-- The ends and the joints of a stroke. -/
def roundStroke : List Attribute :=
  [("stroke-linecap", "round"), ("stroke-linejoin", "round")]

/-- The element has a stroke that shows. -/
def hasStroke (e : Element Float) : Bool :=
  isVisibleColor e.strokeColor && decide (0.0 < e.strokeWidth)

/-- The color of the stroke. -/
def strokePaint (e : Element Float) : String :=
  if hasStroke e then e.strokeColor else "none"

/-- The attributes of a stroke beside its color, and those of the element. -/
def strokeAttributes (e : Element Float) : List Attribute :=
  let stroke :=
    if hasStroke e then
      let dashed := match dashes? e.strokeStyle e.strokeWidth with
        | none => []
        | some (dash, gap) => [("stroke-dasharray", numberText dash ++ "," ++ numberText gap)]
      ("stroke-width", numberText e.strokeWidth) :: roundStroke ++ dashed
    else []
  stroke ++ elementAttributes e

/-- How the inside of a shape is filled. -/
inductive Fill where
  | none
  /-- With the background color. -/
  | solid
  /-- With a pattern of lines. -/
  | hatched
  /-- With a pattern of lines in two directions. -/
  | crossHatched
  deriving DecidableEq, Repr

/-- How the inside of an element is filled. -/
def fillOf (e : Element Float) : Fill :=
  if isVisibleColor e.backgroundColor then
    match e.fillStyle with
    | "hachure" | "zigzag" => .hatched
    | "cross-hatch" => .crossHatched
    | _ => .solid
  else .none

/-- The id of the pattern with a number. -/
def patternId (n : Nat) : String := s!"fill-{n}"

/-- The pattern for an element, under a number. -/
def patternNode (e : Element Float) (crossed : Bool) (n : Nat) : Node :=
  let gap := numberText (Scalar.max (e.strokeWidth * 4.0) 4.0)
  let lineWidth := numberText (Scalar.max (e.strokeWidth / 2.0) 0.5)
  let line (x y : String) : Node :=
    .leaf "line" [("x1", "0"), ("y1", "0"), ("x2", x), ("y2", y), ("stroke", e.backgroundColor),
      ("stroke-width", lineWidth)]
  .branch "pattern" [("id", patternId n), ("patternUnits", "userSpaceOnUse"), ("width", gap),
    ("height", gap), ("patternTransform", "rotate(-41)")]
    (line "0" gap :: if crossed then [line gap "0"] else [])

/-- The pattern that an element brings along, if it needs one. -/
def patternsOf (e : Element Float) (before : Nat) : List Node :=
  match fillOf e with
  | .hatched => [patternNode e false (before + 1)]
  | .crossHatched => [patternNode e true (before + 1)]
  | _ => []

/-- The paint of the inside of an element. -/
def fillPaint (e : Element Float) (before : Nat) : String :=
  match fillOf e with
  | .none => "none"
  | .solid => e.backgroundColor
  | .hatched | .crossHatched => s!"url(#{patternId (before + 1)})"

/-! ### Fragments -/

/-- What an element contributes to a document. -/
structure Fragment where
  nodes : List Node
  patterns : List Node
  diagnostics : Diagnostics

namespace Fragment

/-- Nodes that need nothing else. -/
def ofNodes (nodes : List Node) : Fragment := ⟨nodes, [], []⟩

/-- Nothing but a diagnostic. -/
def skipped (d : Diagnostic) : Fragment := ⟨[], [], [d]⟩

end Fragment

/-- The node of an outline. -/
def outlineNode (outline : Outline Float) (fill : String) (e : Element Float) : Node :=
  let paint := ("fill", fill) :: ("stroke", strokePaint e) :: strokeAttributes e
  match outline with
  | .rect x y width height radius =>
    let corners :=
      if 0.0 < radius then [("rx", numberText radius), ("ry", numberText radius)] else []
    .leaf "rect" (placeAttributes x y width height ++ corners ++ paint)
  | .polygon points => .leaf "polygon" (("points", pointsText points) :: paint)
  | .ellipse cx cy rx ry =>
    .leaf "ellipse" ([("cx", numberText cx), ("cy", numberText cy), ("rx", numberText rx),
      ("ry", numberText ry)] ++ paint)
  | .path steps => .leaf "path" (("d", pathText steps) :: paint)

/-- The nodes of an element's outline. -/
def outlineNodes (e : Element Float) (fill : String) : List Node :=
  ((outline? e).map fun o => outlineNode o fill e).toList

/-- A shape that is filled. -/
def filledFragment (e : Element Float) (before : Nat) : Fragment :=
  ⟨outlineNodes e (fillPaint e before), patternsOf e before, []⟩

/-- A shape whose inside stays empty. -/
def hollowFragment (e : Element Float) (before : Nat) : Fragment :=
  ⟨outlineNodes e "none", patternsOf e before, []⟩

/-! ### Lines -/

/-- The paint inside of an arrowhead. -/
def headFill (e : Element Float) (isOpen : Bool) : String :=
  if isOpen then
    if isVisibleColor e.backgroundColor then e.backgroundColor else "none"
  else strokePaint e

/-- The nodes of an arrowhead.  Arrowheads are never dashed. -/
def headNodes (e : Element Float) (head : Arrowhead) : List Node :=
  let stroke := ("stroke", strokePaint e) :: ("stroke-width", numberText e.strokeWidth) ::
    roundStroke ++ elementAttributes e
  match head with
  | .lines segments => segments.map fun (a, b) =>
    .leaf "path" (("d", pathText [.move a, .line b]) :: ("fill", "none") :: stroke)
  | .polygon points isOpen =>
    [.leaf "polygon" (("points", pointsText points) :: ("fill", headFill e isOpen) :: stroke)]
  | .circle center radius isOpen =>
    [.leaf "circle" ([("cx", numberText center.x), ("cy", numberText center.y),
      ("r", numberText radius), ("fill", headFill e isOpen)] ++ stroke)]

/-- The arrowhead with a name at the tip of a segment. -/
def headFragment (e : Element Float) (name : Option String) (tail tip : Point Float) : Fragment :=
  match name with
  | none => .ofNodes []
  | some name => match Arrowhead.style? name with
    | none => .skipped (.unsupportedArrowhead name e.id)
    | some style => .ofNodes (headNodes e (Arrowhead.place style tail tip e.strokeWidth))

/-- A line ends where it begins. -/
def isClosed (points : List (Point Float)) : Bool :=
  decide (2 < points.length) &&
    match points.head?, points.getLast? with
    | some p, some q => p == q
    | _, _ => false

/-- A line or an arrow with its heads.  Only a closed line has an inside. -/
def linearFragment (e : Element Float) (path : LinearPath Float) (mayFill : Bool) (before : Nat) :
    Fragment :=
  let points := finitePoints e path.points
  match points, points.reverse with
  | p :: q :: _, r :: s :: _ =>
    let fill := if mayFill && isClosed points then fillPaint e before else "none"
    let start := headFragment e path.startArrowhead q p
    let finish := headFragment e path.endArrowhead s r
    ⟨outlineNodes e fill ++ start.nodes ++ finish.nodes, patternsOf e before,
      start.diagnostics ++ finish.diagnostics⟩
  | _, _ => .skipped (.tooFewPoints e.typeName e.id)

/-- A freehand stroke; one without finite points draws nothing. -/
def strokeFragment (e : Element Float) (stroke : Stroke Float) (before : Nat) : Fragment :=
  if (finitePoints e stroke.points).isEmpty then .ofNodes [] else hollowFragment e before

/-! ### Texts, images and frames -/

/-- How a text is anchored, and where its anchor is. -/
def textAnchor (e : Element Float) (t : TextContent Float) : String × Float :=
  match t.textAlign with
  | "center" => ("middle", e.x + e.width / 2.0)
  | "right" => ("end", e.x + e.width)
  | _ => ("start", e.x)

/-- The font size that a text is drawn in. -/
def drawnFontSize (t : TextContent Float) : Float :=
  if 0.0 < t.fontSize then t.fontSize else TextContent.defaultFontSize

/-- The base line of a line of text. -/
def baseline (e : Element Float) (t : TextContent Float) (line : Nat) : Float :=
  let fontSize := drawnFontSize t
  let lineHeight := Scalar.nonneg t.lineHeight * fontSize
  e.y + Float.ofNat line * lineHeight + (lineHeight - fontSize) / 2.0 + fontSize * 0.8

/-- A text, one span for each line. -/
def textFragment (e : Element Float) (t : TextContent Float) : Fragment :=
  if t.text.isEmpty then .ofNodes []
  else
    let (anchor, x) := textAnchor e t
    let spans := t.lines.zipIdx.map fun (line, i) =>
      Node.branch "tspan" [("x", numberText x), ("y", numberText (baseline e t i))]
        [.text (String.ofList line)]
    .ofNodes [.branch "text" ([("font-family", fontFamily t.fontFamily),
      ("font-size", numberText (drawnFontSize t)), ("fill", e.strokeColor),
      ("text-anchor", anchor), ("xml:space", "preserve")] ++ elementAttributes e) spans]

/-- The transformation that flips an image about its middle, if its scale asks for it. -/
def flipAttributes (e : Element Float) (scale : Float × Float) : List Attribute :=
  if isFlipped scale then
    let center := middle e
    let there := numberText center.x ++ " " ++ numberText center.y
    let flipped := numberText (Scalar.sign scale.1) ++ " " ++ numberText (Scalar.sign scale.2)
    let back := numberText (-center.x) ++ " " ++ numberText (-center.y)
    [("transform", s!"translate({there}) scale({flipped}) translate({back})")]
  else []

/-- The data of a file, if it is held by a URL of its own. -/
def dataUrl? (files : Members) (fileId : String) : Option String := do
  let url ← (← (← files.get? fileId).get? "dataURL").text?
  if "data:".toList.isPrefixOf url.toList then some url else none

/-- An image. -/
def imageFragment (files : Members) (e : Element Float) (picture : Picture Float) : Fragment :=
  match picture.fileId with
  | none => .skipped (.imageWithoutFile e.id)
  | some fileId => match dataUrl? files fileId with
    | none => .skipped (.missingFile e.id fileId)
    | some url =>
      let image := Node.leaf "image" (placeAttributes e.x e.y (Scalar.nonneg e.width)
        (Scalar.nonneg e.height) ++ [("preserveAspectRatio", "none"), ("xlink:href", url)] ++
        flipAttributes e picture.scale)
      .ofNodes [.branch "g" (elementAttributes e) [image]]

/-- The font size of the titles of frames. -/
def titleFontSize : Float := 14.0

/-- The color of the titles of frames. -/
def titleColor : String := "#999999"

/-- A frame with its title above. -/
def frameFragment (e : Element Float) (title : FrameTitle) (defaultName : String) (before : Nat) :
    Fragment :=
  let frame := hollowFragment e before
  let label := Node.branch "text" [("x", numberText e.x),
    ("y", numberText (e.y - titleFontSize * 0.5)), ("font-family", fontFamily 0),
    ("font-size", numberText titleFontSize), ("fill", titleColor)]
    [.text (title.name.getD defaultName)]
  { frame with nodes := frame.nodes ++ [label] }

/-- What an element contributes to a document that has so many patterns before it. -/
def fragment (files : Members) (before : Nat) (e : Element Float) : Fragment :=
  match e.kind with
  | .rectangle | .diamond | .ellipse => filledFragment e before
  | .embeddable | .iframe => hollowFragment e before
  | .line path => linearFragment e path true before
  | .arrow path => linearFragment e path false before
  | .freedraw stroke => strokeFragment e stroke before
  | .text t => textFragment e t
  | .image picture => imageFragment files e picture
  | .frame title => frameFragment e title "Frame" before
  | .magicFrame title => frameFragment e title "AI Frame" before
  | .other name => .skipped (.unsupportedType e.id name)

/-- The fragments of elements, one behind the other. -/
def fragments (files : Members) : Nat → List (Element Float) → List Fragment
  | _, [] => []
  | before, e :: es =>
    let f := fragment files before e
    f :: fragments files (before + f.patterns.length) es

/-! ### Documents -/

/-- The filter that turns a drawing dark. -/
def darkFilter : String := "filter: invert(93%) hue-rotate(180deg)"

/-- A drawing, the area that it covers and what it leaves out. -/
structure Document where
  root : Node
  viewport : Box Float
  diagnostics : Diagnostics

/-- The text of a drawing. -/
def Document.text (d : Document) : String := d.root.render

/-- The area that a scene covers. -/
def sceneViewport (measurer : Measurer Float) (scene : Scene) : Box Float :=
  viewport measurer (paddingOf scene.exportOptions.exportPadding) scene.elements

/-- The elements of a scene that are drawn. -/
def visible (elements : List (Element Float)) : List (Element Float) :=
  elements.filter fun e => !e.isDeleted

/-- The drawing of a scene.  One that stands alone paints its background and its dark theme
itself. -/
def document (measurer : Measurer Float) (standalone : Bool) (scene : Scene) : Document :=
  let area := sceneViewport measurer scene
  let parts := fragments scene.files 0 (visible scene.elements)
  let width := numberText area.width
  let height := numberText area.height
  let viewBox := " ".intercalate [numberText area.x, numberText area.y, width, height]
  let dark := standalone && scene.appState.exportWithDarkMode
  let attributes := [("xmlns", "http://www.w3.org/2000/svg"),
    ("xmlns:xlink", "http://www.w3.org/1999/xlink"), ("version", "1.1"), ("width", width),
    ("height", height), ("viewBox", viewBox)] ++ if dark then [("style", darkFilter)] else []
  let patterns := parts.flatMap (·.patterns)
  let defs := if patterns.isEmpty then [] else [Node.branch "defs" [] patterns]
  let background :=
    if standalone && scene.appState.exportBackground then
      [Node.leaf "rect" (placeAttributes area.x area.y area.width area.height ++
        [("fill", scene.appState.viewBackgroundColor)])]
    else []
  { root := .branch "svg" attributes (defs ++ background ++ parts.flatMap (·.nodes))
    viewport := area
    diagnostics := parts.flatMap (·.diagnostics) }

end DiagramScene.Svg
