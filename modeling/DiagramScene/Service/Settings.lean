import DiagramScene.Number.Reading
import DiagramScene.Raster.Fonts
import DiagramScene.Text.Blank
import DiagramScene.Text.Split

/-!
# Settings of the service

The settings come from named variables.  A variable that is absent or does not hold a usable value
leaves the default in place.
-/

namespace DiagramScene.Service

/-- The settings of a service. -/
structure Settings where
  /-- How many images are rendered at once. -/
  maxConcurrent : Nat
  /-- How long rendering may take, in milliseconds. -/
  timeout : Nat
  fonts : FontConfig
  deriving BEq, DecidableEq, Repr

namespace Settings

/-- Four images at once, and half a minute for each. -/
def default : Settings := ⟨4, 30000, .default⟩

/-- The greatest number of images that can be rendered at once. -/
def permitsMax : Nat := 0x1fffffffffffffff

/-- The greatest number that a variable can hold. -/
def numberMax : Nat := 0xffffffffffffffff

/-- A whole number above zero, with blank characters around it. -/
def positiveNumber? (text : String) : Option Nat :=
  (Number.readNatural? numberMax (Text.trimmed text)).filter (0 < ·)

/-- The paths of a list with colons between them; empty ones do not count. -/
def paths (text : String) : List String :=
  ((Text.splitOn ':' text.toList).filter (!·.isEmpty)).map String.ofList

/-- A font family; without one the default family is taken. -/
def familyOf (text : String) : String :=
  let family := Text.trimmed text
  if family.isEmpty then FontConfig.defaultFamily else family

/-- The settings that variables give. -/
def ofLookup (lookup : String → Option String) : Settings where
  maxConcurrent :=
    match (lookup "SCRAWL_MAX_CONCURRENT_RENDERS").bind positiveNumber? with
    | some n => Nat.min n permitsMax
    | none => default.maxConcurrent
  timeout :=
    ((lookup "SCRAWL_RENDER_TIMEOUT_MS").bind positiveNumber?).getD default.timeout
  fonts :=
    { FontConfig.default with
      dirs := ((lookup "SCRAWL_FONT_DIRS").map paths).getD FontConfig.default.dirs
      family := ((lookup "SCRAWL_FONT_FAMILY").map familyOf).getD FontConfig.default.family }

/-- The number of images that can be rendered at once; one at least. -/
def permits (s : Settings) : Nat := Nat.min (Nat.max s.maxConcurrent 1) permitsMax

end Settings

end DiagramScene.Service
