import DiagramScene.Element.Basic
import DiagramScene.Json.Codec

/-!
# Elements as JSON objects

The keys of an element's object fall into three groups: the common attributes, the attributes of
the element's kind, and all others, which are kept as they are.  Both directions are driven by the
same tables of fields.

Reading looks at the type first, then at the common attributes, then at those of the kind.  A
known attribute that is null counts as absent and takes its default.  Writing puts the id and the
type first, then the other common attributes, then those of the kind, then the rest.
-/

namespace DiagramScene

open Json (Codec Schema Decoded DecodeError)

/-! ### Tables of fields -/

/-- The table of `Roundness`. -/
def Roundness.schema : Schema (Roundness Float) where
  name := "Roundness"
  start := ⟨0, none⟩
  fields := [
    .required "type" .uint8 (·.kind) fun v s => { s with kind := v },
    .omitted "value" .float (·.value) fun v s => { s with value := v }]
  unknown := .ignore

/-- The names of what may be attached to an element. -/
def BoundKind.names : List (String × BoundKind) := [("text", .text), ("arrow", .arrow)]

/-- The name of what is attached to an element. -/
def BoundKind.name : BoundKind → String
  | .text => "text"
  | .arrow => "arrow"

/-- The table of `BoundElement`. -/
def BoundElement.schema : Schema BoundElement where
  name := "BoundElement"
  start := ⟨"", .text⟩
  fields := [
    .required "id" .text (·.id) fun v s => { s with id := v },
    .required "type" (.named BoundKind.names BoundKind.name) (·.kind)
      fun v s => { s with kind := v }]
  unknown := .ignore

/-- The table of `InlineLabel`. -/
def InlineLabel.schema : Schema (InlineLabel Float) where
  name := "InlineLabel"
  start := .empty
  fields := [
    .default "text" .text (·.text) fun v s => { s with text := v },
    .omitted "fontSize" .float (·.fontSize) fun v s => { s with fontSize := v },
    .omitted "strokeColor" .text (·.strokeColor) fun v s => { s with strokeColor := v },
    .omitted "groupIds" (.list .text) (·.groupIds) fun v s => { s with groupIds := v }]
  unknown := .keep (·.extra) fun v s => { s with extra := v }

/-- The table of `Metadata`. -/
def Metadata.schema : Schema Metadata where
  name := "ElementMetadata"
  start := .empty
  fields := [
    .omitted "classId" .text (·.classId) fun v s => { s with classId := v }]
  unknown := .keep (·.extra) fun v s => { s with extra := v }

/-- The table of `PointBinding`. -/
def PointBinding.schema : Schema (PointBinding Float) where
  name := "PointBinding"
  start := ⟨none, 0.0, 0.0⟩
  fields := [
    .nullable "elementId" .text (·.elementId) fun v s => { s with elementId := v },
    .default "focus" .float (·.focus) fun v s => { s with focus := v },
    .default "gap" .float (·.gap) fun v s => { s with gap := v }]
  unknown := .ignore

/-- The table of `TextContent`. -/
def TextContent.schema : Schema (TextContent Float) where
  name := "TextData"
  start := .empty
  fields := [
    .default "text" .text (·.text) fun v s => { s with text := v },
    .default "fontSize" .float (·.fontSize) fun v s => { s with fontSize := v },
    .default "fontFamily" .uint32 (·.fontFamily) fun v s => { s with fontFamily := v },
    .default "textAlign" .text (·.textAlign) fun v s => { s with textAlign := v },
    .default "verticalAlign" .text (·.verticalAlign) fun v s => { s with verticalAlign := v },
    .default "baseline" .float (·.baseline) fun v s => { s with baseline := v },
    .optional "containerId" .text (·.containerId) fun v s => { s with containerId := v },
    .default "originalText" .text (·.originalText) fun v s => { s with originalText := v },
    .default "lineHeight" .float (·.lineHeight) fun v s => { s with lineHeight := v }]
  unknown := .ignore

/-- The table of `LinearPath`. -/
def LinearPath.schema : Schema (LinearPath Float) where
  name := "LinearData"
  start := .empty
  fields := [
    .default "points" (.list .floatPair) (·.points) fun v s => { s with points := v },
    .optional "lastCommittedPoint" .floatPair (·.lastCommittedPoint)
      fun v s => { s with lastCommittedPoint := v },
    .optional "startBinding" PointBinding.schema.codec (·.startBinding)
      fun v s => { s with startBinding := v },
    .optional "endBinding" PointBinding.schema.codec (·.endBinding)
      fun v s => { s with endBinding := v },
    .optional "startArrowhead" .text (·.startArrowhead) fun v s => { s with startArrowhead := v },
    .optional "endArrowhead" .text (·.endArrowhead) fun v s => { s with endArrowhead := v }]
  unknown := .ignore

/-- The table of `Stroke`. -/
def Stroke.schema : Schema (Stroke Float) where
  name := "FreedrawData"
  start := .empty
  fields := [
    .default "points" (.list .floatPair) (·.points) fun v s => { s with points := v },
    .default "pressures" (.list .float) (·.pressures) fun v s => { s with pressures := v },
    .default "simulatePressure" .bool (·.simulatePressure)
      fun v s => { s with simulatePressure := v },
    .optional "lastCommittedPoint" .floatPair (·.lastCommittedPoint)
      fun v s => { s with lastCommittedPoint := v }]
  unknown := .ignore

/-- The table of `Picture`. -/
def Picture.schema : Schema (Picture Float) where
  name := "ImageData"
  start := .empty
  fields := [
    .optional "fileId" .text (·.fileId) fun v s => { s with fileId := v },
    .default "status" .text (·.status) fun v s => { s with status := v },
    .default "scale" .floatPair (·.scale) fun v s => { s with scale := v }]
  unknown := .ignore

/-- The table of `FrameTitle`. -/
def FrameTitle.schema : Schema FrameTitle where
  name := "FrameData"
  start := .empty
  fields := [
    .optional "name" .text (·.name) fun v s => { s with name := v }]
  unknown := .ignore

namespace Element

/-- The table of the common attributes. -/
def commonSchema : Schema (Element Float) where
  name := "Element"
  start := ofKind .rectangle
  fields := [
    .default "id" .text (·.id) fun v s => { s with id := v },
    .default "x" .float (·.x) fun v s => { s with x := v },
    .default "y" .float (·.y) fun v s => { s with y := v },
    .default "width" .float (·.width) fun v s => { s with width := v },
    .default "height" .float (·.height) fun v s => { s with height := v },
    .default "angle" .float (·.angle) fun v s => { s with angle := v },
    .default "strokeColor" .text (·.strokeColor) fun v s => { s with strokeColor := v },
    .default "backgroundColor" .text (·.backgroundColor)
      fun v s => { s with backgroundColor := v },
    .default "fillStyle" .text (·.fillStyle) fun v s => { s with fillStyle := v },
    .default "strokeWidth" .float (·.strokeWidth) fun v s => { s with strokeWidth := v },
    .default "strokeStyle" .text (·.strokeStyle) fun v s => { s with strokeStyle := v },
    .default "roughness" .float (·.roughness) fun v s => { s with roughness := v },
    .default "opacity" .float (·.opacity) fun v s => { s with opacity := v },
    .default "groupIds" (.list .text) (·.groupIds) fun v s => { s with groupIds := v },
    .optional "frameId" .text (·.frameId) fun v s => { s with frameId := v },
    .optional "roundness" Roundness.schema.codec (·.roundness)
      fun v s => { s with roundness := v },
    .default "seed" .int64 (·.seed) fun v s => { s with seed := v },
    .default "version" .int64 (·.version) fun v s => { s with version := v },
    .default "versionNonce" .int64 (·.versionNonce) fun v s => { s with versionNonce := v },
    .default "isDeleted" .bool (·.isDeleted) fun v s => { s with isDeleted := v },
    .optional "boundElements" (.list BoundElement.schema.codec) (·.boundElements)
      fun v s => { s with boundElements := v },
    .default "updated" .int64 (·.updated) fun v s => { s with updated := v },
    .optional "link" .text (·.link) fun v s => { s with link := v },
    .default "locked" .bool (·.locked) fun v s => { s with locked := v },
    .omitted "label" InlineLabel.schema.codec (·.label) fun v s => { s with label := v },
    .omitted "metadata" Metadata.schema.codec (·.metadata) fun v s => { s with metadata := v }]
  unknown := .ignore

end Element

/-! ### Kinds -/

namespace ElementKind

/-- How the attributes of the kind with a name are read and which keys they have. -/
structure Reader where
  keys : List String
  decode : Members → Decoded (ElementKind Float)

/-- The reader of a kind without attributes of its own. -/
def Reader.bare (kind : ElementKind Float) : Reader where
  keys := []
  decode _ := .ok kind

/-- The reader of a kind whose attributes a table describes. -/
def Reader.ofSchema {σ : Type} (schema : Schema σ) (make : σ → ElementKind Float) : Reader where
  keys := schema.keys
  decode ms := (schema.decodeMembers ms).map make

/-- The text as it was first written defaults to the text. -/
def completedText (t : TextContent Float) : ElementKind Float :=
  .text (if t.originalText.isEmpty then { t with originalText := t.text } else t)

/-- The reader of the kind with a name. -/
def reader (name : String) : Reader :=
  match name with
  | "rectangle" => .bare .rectangle
  | "diamond" => .bare .diamond
  | "ellipse" => .bare .ellipse
  | "line" => .ofSchema LinearPath.schema .line
  | "arrow" => .ofSchema LinearPath.schema .arrow
  | "freedraw" => .ofSchema Stroke.schema .freedraw
  | "text" => .ofSchema TextContent.schema completedText
  | "image" => .ofSchema Picture.schema .image
  | "frame" => .ofSchema FrameTitle.schema .frame
  | "magicframe" => .ofSchema FrameTitle.schema .magicFrame
  | "embeddable" => .bare .embeddable
  | "iframe" => .bare .iframe
  | _ => .bare (.other name)

/-- The members that the attributes of a kind are written as. -/
def encodeMembers : ElementKind Float → Members
  | line path | arrow path => LinearPath.schema.encodeMembers path
  | freedraw stroke => Stroke.schema.encodeMembers stroke
  | text t => TextContent.schema.encodeMembers t
  | image picture => Picture.schema.encodeMembers picture
  | frame title | magicFrame title => FrameTitle.schema.encodeMembers title
  | rectangle | diamond | ellipse | embeddable | iframe | other _ => []

end ElementKind

namespace Element

/-- The keys of the common attributes. -/
def commonKeys : List String := commonSchema.keys

/-- The name of the kind of an element's object. -/
def decodeType (ms : Members) : Decoded String :=
  match ms.get? "type" with
  | some (.str name) => .ok name
  | some j => .error (.typeNotText j)
  | none => .error (.missingField "type")

/-- The members with keys from a list that are not null. -/
def known (keys : List String) (ms : Members) : Members :=
  ms.filter fun m => keys.contains m.1 && !m.2.isNull

/-- Reads an element from the members of its object. -/
def decodeMembers (ms : Members) : Decoded (Element Float) := do
  let name ← decodeType ms
  let reader := ElementKind.reader name
  let others := ms.filter (·.1 != "type")
  let element ← commonSchema.decodeMembers
    (known commonKeys (others.filter fun m => !reader.keys.contains m.1))
  let kind ← reader.decode (known reader.keys others)
  let extra := others.filter fun m => !reader.keys.contains m.1 && !commonKeys.contains m.1
  .ok { element with kind := kind, extra := extra }

/-- Reads an element. -/
def decode : Json → Decoded (Element Float)
  | .obj ms => decodeMembers ms
  | j => .error (.invalidType j .object)

/-- The members that an element is written as. -/
def encodeMembers (e : Element Float) : Members :=
  let head : Members := [("id", .str e.id), ("type", .str e.typeName)]
  let common := (commonSchema.encodeMembers e).filter (·.1 != "id")
  ((head ++ common).putAll e.kind.encodeMembers).putNew e.extra

/-- The codec of elements. -/
def codec : Codec (Element Float) where
  decode := decode
  encode e := .obj e.encodeMembers

end Element

end DiagramScene
