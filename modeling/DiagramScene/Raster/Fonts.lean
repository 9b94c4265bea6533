import DiagramScene.Raster.Error

/-!
# Fonts

Fonts are loaded once and shared by all images.  Each directory of the configuration has to exist;
the first one that does not is an error, and no font is loaded then.
-/

namespace DiagramScene

/-- Where fonts come from. -/
structure FontConfig where
  /-- Directories beside those of the system. -/
  dirs : List String
  /-- The family of texts whose own family is not there. -/
  family : String
  usesSystemFonts : Bool
  deriving BEq, DecidableEq, Repr

namespace FontConfig

/-- The family of texts whose own family is not there, if nothing else is said. -/
def defaultFamily : String := "Arial"

/-- The fonts of the system. -/
def default : FontConfig := ⟨[], defaultFamily, true⟩

end FontConfig

/-- Fonts that are loaded. -/
structure Fonts where
  /-- The number of faces. -/
  faces : Nat
  family : String
  deriving BEq, DecidableEq, Repr

namespace Fonts

/-- No fonts.  Texts are left out of images then, and shapes are not. -/
def empty : Fonts := ⟨0, FontConfig.defaultFamily⟩

/-- The number of faces in directories, the first of which that does not exist is an error. -/
def countFaces (facesIn : String → Option Nat) : List String → Except RasterError Nat
  | [] => .ok 0
  | dir :: dirs =>
    match facesIn dir with
    | none => .error (.missingFontDirectory dir)
    | some n => (countFaces facesIn dirs).map (n + ·)

/-- Loads the fonts of a configuration, given the number of faces in each directory that exists.
-/
def load (facesIn : String → Option Nat) (config : FontConfig) : Except RasterError Fonts :=
  (countFaces facesIn config.dirs).map fun faces => ⟨faces, config.family⟩

end Fonts

end DiagramScene
