/-!
# Errors of rendering

Why a scene does not become an image.
-/

namespace DiagramScene

/-- Why there is no image. -/
inductive RasterError where
  /-- The drawing cannot be read back. -/
  | unreadableDrawing (reason : String)
  /-- There is no canvas of this size. -/
  | canvasTooLarge (width height : Nat)
  | pngEncoding
  /-- The background of a JPEG image is no color. -/
  | unknownJpegBackground
  /-- The background of a JPEG image lets something shine through, or there is none. -/
  | transparentJpegBackground
  | jpegEncoding
  | unsupportedMimeType (mimeType : String)
  /-- There is nothing that could render. -/
  | unavailable (reason : String)
  | missingFontDirectory (path : String)
  deriving DecidableEq, Repr

/-- The wording of an error. -/
def RasterError.message : RasterError → String
  | unreadableDrawing reason => s!"failed to parse SVG: {reason}"
  | canvasTooLarge width height =>
    s!"failed to allocate pixmap for raster rendering ({width}x{height})"
  | pngEncoding => "failed to encode PNG"
  | unknownJpegBackground => "invalid background color for JPG rendering"
  | transparentJpegBackground =>
    "JPG rendering requires an opaque background color (e.g. white)"
  | jpegEncoding => "failed to encode JPG"
  | unsupportedMimeType mimeType => s!"unsupported export mime type `{mimeType}`"
  | unavailable reason => s!"render backend unavailable: {reason}"
  | missingFontDirectory path => s!"font directory `{path}` does not exist"

end DiagramScene
