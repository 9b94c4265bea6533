import DiagramScene.Diagram.Header
import DiagramScene.Diagram.Layout
import DiagramScene.Label.Materialize
import DiagramScene.Scene.Basic

/-!
# From elements and diagrams to scenes

`Scene.ofElements` gives labels elements of their own and assembles the scene.  `Scene.ofDiagram`
gets the elements from a layout, once the type of the diagram is known, and takes the labels of
classes from the diagram text.
-/

namespace DiagramScene

/-- Why there is no scene. -/
inductive SceneError where
  /-- No detector knows the diagram; its cleaned text is given. -/
  | undetected (text : String)
  | layout (error : Diagram.LayoutError)
  deriving DecidableEq, Repr

namespace SceneError

/-- The wording of an error. -/
def message : SceneError → String
  | undetected text => s!"No diagram type detected for text: {text}"
  | layout error => error.message

/-- The caller is at fault, and not the program. -/
def isClientError : SceneError → Bool
  | undetected _ => true
  | layout (.unreadable _) => true
  | layout (.failed _) => false

end SceneError

namespace Scene

variable {σ : Type}

/-- The scene of elements and the labels of classes. -/
def ofLabeled (source : IdSource σ) (measurer : Measurer Float) (labels : ClassLabels)
    (elements : List (Element Float)) (files : Members) (params : OutputParams) (s : σ) :
    Scene × σ :=
  let (elements, s) := materialize source measurer labels elements s
  ((assemble elements params).withFiles files, s)

/-- The scene of elements that carry labels. -/
def ofElements (source : IdSource σ) (measurer : Measurer Float) (elements : List (Element Float))
    (files : Members) (params : OutputParams) (s : σ) : Scene × σ :=
  ofLabeled source measurer [] elements files params s

/-- The scene of a diagram text. -/
def ofDiagram (source : IdSource σ) (measurer : Measurer Float) (layout : Diagram.Layout)
    (text : String) (config : Option Json) (params : OutputParams) (s : σ) :
    Except SceneError (Scene × σ) :=
  match Diagram.Registry.builtin.detect text with
  | .error cleaned => .error (.undetected cleaned)
  | .ok _ =>
    match layout text (Diagram.configFor config) with
    | .error e => .error (.layout e)
    | .ok result =>
      let labels := ClassLabels.ofText text
      .ok (ofLabeled source measurer labels result.elements result.files params s)

end Scene

end DiagramScene
