import DiagramScene.Json.Codec
import DiagramScene.Label.ClassBody

/-!
# Labels in JSON

Labels are an object of strings, in the order of the classes.
-/

namespace DiagramScene.ClassLabels

open Json (Codec Decoded)

/-- Reads labels, of which the last one for a class counts. -/
def decode : Json → Decoded ClassLabels
  | .obj ms => do
    let entries ← ms.mapM fun m => (Codec.text.decode m.2).map fun label => (m.1, label)
    return Keyed.ofList entries
  | j => .error (.invalidType j .object)

/-- Labels as an object. -/
def encode (labels : ClassLabels) : Json :=
  .obj (labels.map fun e => (e.1, .str e.2))

/-- The codec of labels. -/
def codec : Codec ClassLabels := ⟨decode, encode⟩

end DiagramScene.ClassLabels
