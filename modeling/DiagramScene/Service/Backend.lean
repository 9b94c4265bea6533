import DiagramScene.Raster.Render

/-!
# The rendering backend

The fonts that all images share are loaded when the first image is asked for.  A backend is either
waiting for that or ready; a failure leaves it waiting, so that the next request tries again.
-/

namespace DiagramScene.Service

/-- What renders the images of a service. -/
inductive Backend where
  /-- The fonts of the configuration are still to be loaded. -/
  | waiting (fonts : FontConfig)
  | ready (rasterizer : Rasterizer)

namespace Backend

/-- The backend has been made ready. -/
def isReady : Backend → Bool
  | waiting _ => false
  | ready _ => true

/-- The rasterizer that draws with the given fonts.  They change what is painted and neither the
size of an image nor its background. -/
def rasterizerWith (_fonts : Fonts) : Rasterizer := Raster.render .default

/-- The rasterizer of a backend, and the backend from then on. -/
def get (facesIn : String → Option Nat) : Backend → Except RasterError Rasterizer × Backend
  | ready rasterizer => (.ok rasterizer, .ready rasterizer)
  | waiting config =>
    match Fonts.load facesIn config with
    | .error e => (.error e, .waiting config)
    | .ok fonts =>
      let rasterizer := rasterizerWith fonts
      (.ok rasterizer, .ready rasterizer)

end Backend

end DiagramScene.Service
