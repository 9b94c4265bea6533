import DiagramScene.Element.Codec
import DiagramScene.Scene.Params

/-!
# Scenes

A `Scene` is a finished list of elements with its looks, its files and its export options.
`linkIssues` checks what ties the elements together: ids are unique, and a text comes after its
container, which lists it.
-/

namespace DiagramScene

/-- A scene that is ready to be drawn. -/
structure Scene where
  elements : List (Element Float)
  appState : AppState
  files : Members
  exportOptions : ExportOptions
  deriving BEq, Repr

/-- A fault in what ties the elements of a scene together. -/
inductive LinkIssue where
  | duplicateId (id : String)
  | beforeContainer (text container : String)
  | notListed (text container : String)
  deriving DecidableEq, Repr

/-- The wording of a fault. -/
def LinkIssue.message : LinkIssue → String
  | duplicateId id => s!"duplicate element id `{id}`"
  | beforeContainer text container => s!"text `{text}` appears before its container `{container}`"
  | notListed text container => s!"container `{container}` does not list text `{text}`"

namespace Element

variable {α : Type} [Scalar α]

/-- The last element of a list that has an id. -/
def withId? (elements : List (Element α)) (id : String) : Option (Element α) :=
  elements.reverse.find? (·.id == id)

/-- An element lists an id among what is attached to it. -/
def lists (e : Element α) (id : String) : Bool := e.boundIds.contains id

/-- The faults of one element, after elements with the given ids and among all elements. -/
def issuesOf (all : List (Element α)) (seen : List String) (e : Element α) : List LinkIssue :=
  let duplicate := if seen.contains e.id then [LinkIssue.duplicateId e.id] else []
  match e.containerId? with
  | none => duplicate
  | some container =>
    let early :=
      if (e.id :: seen).contains container then [] else [LinkIssue.beforeContainer e.id container]
    let listed := (withId? all container).any (·.lists e.id)
    let unlisted := if listed then [] else [LinkIssue.notListed e.id container]
    duplicate ++ early ++ unlisted

/-- The faults of the elements of a list, after elements with the given ids. -/
def issuesFrom (all : List (Element α)) : List String → List (Element α) → List LinkIssue
  | _, [] => []
  | seen, e :: es => issuesOf all seen e ++ issuesFrom all (e.id :: seen) es

/-- The faults in what ties the elements of a list together. -/
def linkIssues (elements : List (Element α)) : List LinkIssue :=
  issuesFrom elements [] elements

end Element

namespace Scene

/-- The scene of nothing. -/
def empty : Scene := ⟨[], .default, [], .default⟩

/-- The scene of elements, with what a caller asks for. -/
def assemble (elements : List (Element Float)) (params : OutputParams) : Scene where
  elements := elements
  appState := AppState.ofParams params
  files := []
  exportOptions := ExportOptions.ofParams params

/-- The scene with files. -/
def withFiles (scene : Scene) (files : Members) : Scene := { scene with files := files }

/-- The scene as an image of a type. -/
def withMimeType (scene : Scene) (mimeType : String) : Scene :=
  { scene with exportOptions := { scene.exportOptions with mimeType := mimeType } }

/-- The faults in what ties the elements together. -/
def linkIssues (scene : Scene) : List LinkIssue := Element.linkIssues scene.elements

/-- The scene and its export options in one flat object. -/
def toExport (scene : Scene) : Json :=
  let options := scene.exportOptions
  let optional (key : String) (value : Option Float) : Members :=
    (value.map fun x => (key, Json.finite x)).toList
  .obj ([("elements", .arr (scene.elements.map Element.codec.encode)),
    ("appState", AppState.schema.codec.encode scene.appState),
    ("files", .obj scene.files),
    ("mimeType", .str options.mimeType)] ++
    optional "maxWidthOrHeight" options.maxWidthOrHeight ++
    optional "quality" options.quality ++
    optional "exportScale" (options.dimensions.map (·.scale)) ++
    optional "exportPadding" options.exportPadding)

end Scene

end DiagramScene
