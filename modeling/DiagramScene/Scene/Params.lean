import DiagramScene.Json.Codec

/-!
# Output parameters and the looks of a scene

`OutputParams` are what a caller asks for.  From them follow the `AppState`, the looks of the
scene as a whole, and the `ExportOptions`, which say how it becomes an image.
-/

namespace DiagramScene

open Json (Codec Schema)

/-- What a caller asks for. -/
structure OutputParams where
  exportScale : Option Float
  exportPadding : Option Float
  maxSize : Option Float
  quality : Option Float
  backgroundColor : Option String
  darkMode : Option Bool
  /-- Settings of the application state, applied after those that follow from the other fields. -/
  appState : Option Members
  deriving BEq, Repr

namespace OutputParams

/-- No wishes. -/
def empty : OutputParams := ⟨none, none, none, none, none, none, none⟩

/-- The table of `OutputParams`. -/
def schema : Schema OutputParams where
  name := "OutputParams"
  start := empty
  fields := [
    .optional "exportScale" .float (·.exportScale) fun v s => { s with exportScale := v },
    .optional "exportPadding" .float (·.exportPadding)
      fun v s => { s with exportPadding := v },
    .optional "maxSize" .float (·.maxSize) fun v s => { s with maxSize := v },
    .optional "quality" .float (·.quality) fun v s => { s with quality := v },
    .optional "backgroundColor" .text (·.backgroundColor)
      fun v s => { s with backgroundColor := v },
    .optional "darkMode" .bool (·.darkMode) fun v s => { s with darkMode := v },
    .optional "appState" .members (·.appState) fun v s => { s with appState := v }]
  unknown := .ignore

end OutputParams

/-- The looks of a scene as a whole. -/
structure AppState where
  viewBackgroundColor : String
  exportWithDarkMode : Bool
  exportBackground : Bool
  extra : Members
  deriving BEq, Repr

namespace AppState

/-- The background of a scene without a color of its own. -/
def defaultBackground : String := "#ffffff"

/-- The looks of a scene of which nothing is known. -/
def default : AppState := ⟨defaultBackground, false, true, []⟩

/-- The keys that are no extra settings. -/
def reservedKeys : List String := ["viewBackgroundColor", "exportWithDarkMode", "exportBackground"]

/-- The state with one setting.  A reserved key takes only a value of its own type and is never an
extra setting. -/
def override (state : AppState) (key : String) (value : Json) : AppState :=
  match key, value with
  | "viewBackgroundColor", .str color => { state with viewBackgroundColor := color }
  | "exportWithDarkMode", .bool dark => { state with exportWithDarkMode := dark }
  | "exportBackground", .bool shown => { state with exportBackground := shown }
  | key, value =>
    if reservedKeys.contains key then state
    else { state with extra := state.extra.put key value }

/-- The state with the settings of an object, one after the other. -/
def overrideAll (state : AppState) (settings : Members) : AppState :=
  settings.foldl (fun acc m => acc.override m.1 m.2) state

/-- The state that follows from what a caller asks for. -/
def ofParams (params : OutputParams) : AppState :=
  let state : AppState :=
    { default with
      viewBackgroundColor := params.backgroundColor.getD defaultBackground
      exportWithDarkMode := params.darkMode.getD false }
  match params.appState with
  | none => state
  | some settings => state.overrideAll settings

/-- The table of `AppState`. -/
def schema : Schema AppState where
  name := "AppState"
  start := default
  fields := [
    .required "viewBackgroundColor" .text (·.viewBackgroundColor)
      fun v s => { s with viewBackgroundColor := v },
    .required "exportWithDarkMode" .bool (·.exportWithDarkMode)
      fun v s => { s with exportWithDarkMode := v },
    .default "exportBackground" .bool (·.exportBackground)
      fun v s => { s with exportBackground := v }]
  unknown := .keep (·.extra) fun v s => { s with extra := v }

end AppState

/-- The factor from the size of a scene to that of its image. -/
structure DimensionScale where
  scale : Float
  deriving BEq, Repr

/-- The table of `DimensionScale`. -/
def DimensionScale.schema : Schema DimensionScale where
  name := "DimensionScale"
  start := ⟨0.0⟩
  fields := [.required "scale" .float (·.scale) fun v s => { s with scale := v }]
  unknown := .ignore

/-- The type of PNG images. -/
def mimePng : String := "image/png"

/-- The type of JPEG images. -/
def mimeJpeg : String := "image/jpeg"

/-- The type of SVG images. -/
def mimeSvg : String := "image/svg+xml"

/-- How a scene becomes an image. -/
structure ExportOptions where
  mimeType : String
  maxWidthOrHeight : Option Float
  quality : Option Float
  exportPadding : Option Float
  dimensions : Option DimensionScale
  deriving BEq, Repr

namespace ExportOptions

/-- A PNG image with no further wishes. -/
def default : ExportOptions := ⟨mimePng, none, none, none, none⟩

/-- The options that follow from what a caller asks for. -/
def ofParams (params : OutputParams) : ExportOptions where
  mimeType := mimePng
  maxWidthOrHeight := params.maxSize
  quality := params.quality
  exportPadding := params.exportPadding
  dimensions := params.exportScale.map DimensionScale.mk

/-- The table of `ExportOptions`. -/
def schema : Schema ExportOptions where
  name := "ExportOptions"
  start := default
  fields := [
    .required "mimeType" .text (·.mimeType) fun v s => { s with mimeType := v },
    .omittedInObject "maxWidthOrHeight" .float (·.maxWidthOrHeight)
      fun v s => { s with maxWidthOrHeight := v },
    .omittedInObject "quality" .float (·.quality) fun v s => { s with quality := v },
    .omittedInObject "exportPadding" .float (·.exportPadding)
      fun v s => { s with exportPadding := v },
    .omittedInObject "dimensions" DimensionScale.schema.codec (·.dimensions)
      fun v s => { s with dimensions := v }]
  unknown := .ignore

end ExportOptions

end DiagramScene
