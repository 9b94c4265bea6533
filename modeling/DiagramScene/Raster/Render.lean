import DiagramScene.Raster.DarkTheme
import DiagramScene.Raster.Fonts
import DiagramScene.Raster.Geometry
import DiagramScene.Svg.Writer
import DiagramScene.Text.Utf8

/-!
# Images of scenes

An image is the text of an SVG document, or a canvas on which the drawing is painted.  A canvas is
known by its size and its background: the background is what every pixel holds that the drawing
leaves alone.

`render` chooses by the type of the image.  What a JPEG image asks of its background is checked
before anything is drawn, and diagnostics are kept when rendering fails later on.
-/

namespace DiagramScene

open Raster

/-- A painted canvas. -/
structure Canvas where
  width : Nat
  height : Nat
  /-- What a pixel holds where nothing is drawn. -/
  background : Pixel
  deriving DecidableEq, Repr

/-- An image. -/
inductive Image where
  | png (canvas : Canvas)
  | jpeg (canvas : Canvas) (quality : Nat)
  /-- An image that is a text. -/
  | text (content : String)
  deriving DecidableEq, Repr

/-- What is handed on: bytes, or an image. -/
inductive Content where
  | bytes (bytes : Bytes)
  | image (image : Image)
  deriving DecidableEq, Repr

namespace Content

/-- The bytes of a text. -/
def ofText (text : String) : Content := bytes (Text.Utf8.encode text)

/-- The content as bytes, if it is not a painted image. -/
def bytes? : Content → Option Bytes
  | bytes bs => some bs
  | image (.text text) => some (Text.Utf8.encode text)
  | image _ => none

end Content

/-- What came of rendering a scene. -/
structure Rendering where
  result : Except RasterError Image
  diagnostics : Diagnostics
  /-- How long it took, in milliseconds. -/
  elapsed : Nat

/-- What makes images of scenes. -/
abbrev Rasterizer := Scene → Rendering

namespace Raster

/-! ### Canvases -/

/-- The quality of a JPEG image without one of its own. -/
def defaultJpegQuality : Nat := 92

/-- The quality of a JPEG image in percent. -/
def jpegQuality (quality : Option Float) : Nat :=
  match quality.bind Scalar.positive? with
  | none => defaultJpegQuality
  | some q =>
    let percent := Number.roundWith .nearestAway (Scalar.min q 1.0 * 100.0)
    Nat.max 1 (Number.wholePart 255 percent)

/-- The number of bytes in the longest row of a canvas. -/
def rowBytesMax : Nat := 2147483647

/-- The number of bytes of a pixel. -/
def pixelBytes : Nat := 4

/-- A canvas can have this width. -/
def fitsRow (width : Nat) : Bool := decide (width * pixelBytes ≤ rowBytesMax)

/-- A length that a drawing can have, as it is written in a document. -/
def isUsableLength (length : Float) : Bool :=
  let written := (Svg.toThousandths length).toFloat32.toFloat
  written.isFinite && decide (0.0 < written)

/-- The background that a scene asks for.  One that is no color is reported and left out. -/
def backgroundOf (state : AppState) : Pixel × Diagnostics :=
  if state.exportBackground then
    match Rgba.parse? state.viewBackgroundColor with
    | some color => (color.toPixel, [])
    | none => (.clear, [.unsupportedBackground state.viewBackgroundColor])
  else (.clear, [])

/-- The size of the image of a scene whose drawing covers an area. -/
def imageSize (options : ExportOptions) (area : Box Float) : PixelSize Float :=
  pixelSize area.width area.height (options.dimensions.map (·.scale)) options.maxWidthOrHeight

/-- The canvas of a scene whose drawing covers an area. -/
def canvasOf (scene : Scene) (area : Box Float) : Except RasterError Canvas × Diagnostics :=
  if !(isUsableLength area.width && isUsableLength area.height) then
    (.error (.unreadableDrawing "SVG has an invalid size"), [])
  else
    let size := imageSize scene.exportOptions area
    if fitsRow size.width then
      let (background, diagnostics) := backgroundOf scene.appState
      let shown := if scene.appState.exportWithDarkMode then background.darkened else background
      (.ok ⟨size.width, size.height, shown⟩, diagnostics)
    else (.error (.canvasTooLarge size.width size.height), [])

/-- Paints a scene. -/
def paint (measurer : Measurer Float) (scene : Scene) : Except RasterError Canvas × Diagnostics :=
  let drawing := Svg.document measurer false scene
  let (canvas, diagnostics) := canvasOf scene drawing.viewport
  (canvas, drawing.diagnostics ++ diagnostics)

/-! ### Types of images -/

/-- What a JPEG image asks of its background: it has to be a color, and an opaque one. -/
def jpegFault? (state : AppState) : Option RasterError :=
  if state.exportBackground then
    match Rgba.parse? state.viewBackgroundColor with
    | none => some .unknownJpegBackground
    | some color => if color.isOpaque then none else some .transparentJpegBackground
  else some .transparentJpegBackground

/-- The longest side that a JPEG image can have. -/
def jpegSideMax : Nat := 65535

/-- The JPEG image of a canvas. -/
def encodeJpeg (quality : Option Float) (canvas : Canvas) : Except RasterError Image :=
  if canvas.width ≤ jpegSideMax ∧ canvas.height ≤ jpegSideMax then
    .ok (.jpeg canvas (jpegQuality quality))
  else .error .jpegEncoding

/-- Renders a scene as a PNG image. -/
def renderPng (measurer : Measurer Float) (scene : Scene) : Rendering :=
  let (canvas, diagnostics) := paint measurer scene
  ⟨canvas.map .png, diagnostics, 0⟩

/-- Renders a scene as a JPEG image. -/
def renderJpeg (measurer : Measurer Float) (scene : Scene) : Rendering :=
  match jpegFault? scene.appState with
  | some e => ⟨.error e, [], 0⟩
  | none =>
    let (canvas, diagnostics) := paint measurer scene
    ⟨canvas.bind (encodeJpeg scene.exportOptions.quality), diagnostics, 0⟩

/-- Renders a scene as an SVG document. -/
def renderSvg (measurer : Measurer Float) (scene : Scene) : Rendering :=
  let drawing := Svg.document measurer true scene
  ⟨.ok (.text drawing.text), drawing.diagnostics, 0⟩

/-- Renders a scene as an image of its type. -/
def render (measurer : Measurer Float) : Rasterizer := fun scene =>
  let mimeType := scene.exportOptions.mimeType
  if mimeType = mimePng then renderPng measurer scene
  else if mimeType = mimeJpeg then renderJpeg measurer scene
  else if mimeType = mimeSvg then renderSvg measurer scene
  else ⟨.error (.unsupportedMimeType mimeType), [], 0⟩

end Raster

end DiagramScene
