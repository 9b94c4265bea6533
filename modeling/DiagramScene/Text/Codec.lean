import DiagramScene.Json.Codec
import DiagramScene.Text.Measure

/-!
# Text styles and sizes in JSON

The tables of what a measurer takes and gives.
-/

namespace DiagramScene

open Json (Schema)

/-- The table of `TextStyle`. -/
def TextStyle.schema : Schema (TextStyle Float) where
  name := "TextStyle"
  start := .default
  fields := [
    .nullable "font_family" .text (·.fontFamily) fun v s => { s with fontFamily := v },
    .required "font_size" .float (·.fontSize) fun v s => { s with fontSize := v },
    .nullable "line_height" .float (·.lineHeight) fun v s => { s with lineHeight := v }]
  unknown := .ignore

/-- The table of `TextMetrics`. -/
def TextMetrics.schema : Schema (TextMetrics Float) where
  name := "TextMetrics"
  start := ⟨0.0, 0.0, 0, 0.0⟩
  fields := [
    .required "width" .float (·.width) fun v s => { s with width := v },
    .required "height" .float (·.height) fun v s => { s with height := v },
    .required "line_count" .size (·.lineCount) fun v s => { s with lineCount := v },
    .required "line_height" .float (·.lineHeight) fun v s => { s with lineHeight := v }]
  unknown := .ignore

end DiagramScene
