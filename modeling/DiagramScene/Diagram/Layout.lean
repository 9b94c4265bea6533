import DiagramScene.Diagram.Config
import DiagramScene.Element.Codec
import DiagramScene.Json.Reader

/-!
# Layouts

A `Layout` turns a diagram text into positioned elements that still carry their labels.  A
recorded layout gives the same elements for every text; it is read from a JSON text that holds an
array of elements, or an object with elements and files.
-/

namespace DiagramScene.Diagram

open Json (Codec Schema Decoded)

/-- Why a layout gives no elements. -/
inductive LayoutError where
  /-- The diagram text is not understood. -/
  | unreadable (message : String)
  | failed (message : String)
  deriving DecidableEq, Repr

/-- The wording of a layout error. -/
def LayoutError.message : LayoutError → String
  | unreadable message => s!"Diagram parse error: {message}"
  | failed message => s!"Layout failed: {message}"

/-- The elements of a diagram, in place, and the files that they refer to. -/
structure LayoutResult where
  elements : List (Element Float)
  files : Members
  deriving BEq, Repr

namespace LayoutResult

/-- No elements. -/
def empty : LayoutResult := ⟨[], []⟩

/-- The table of `LayoutResult`. -/
def schema : Schema LayoutResult where
  name := "LayoutOutput"
  start := empty
  fields := [
    .default "elements" (.list Element.codec) (·.elements) fun v s => { s with elements := v },
    .default "files" .members (·.files) fun v s => { s with files := v }]
  unknown := .ignore

/-- Reads elements alone, or elements with files. -/
def decode : Json → Decoded LayoutResult
  | .arr xs => ((Codec.list Element.codec).decode (.arr xs)).map fun elements => ⟨elements, []⟩
  | j => schema.decode j

/-- Reads a recorded layout. -/
def ofText (text : String) : Except LayoutError LayoutResult :=
  match Json.readText text with
  | .error e => .error (.failed s!"invalid layout JSON: {e.message}")
  | .ok j => match decode j with
    | .error e => .error (.failed s!"invalid layout elements: {e.message}")
    | .ok result => .ok result

end LayoutResult

/-- What turns a diagram text into elements, under a configuration. -/
abbrev Layout := String → Json → Except LayoutError LayoutResult

namespace Layout

/-- The layout that gives the same result for every text. -/
def recorded (result : LayoutResult) : Layout := fun _ _ => .ok result

/-- The layout that always fails. -/
def failing (error : LayoutError) : Layout := fun _ _ => .error error

end Layout

end DiagramScene.Diagram
