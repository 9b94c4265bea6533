import DiagramScene.Service.Backend
import DiagramScene.Service.Error
import DiagramScene.Service.Response
import DiagramScene.Service.Settings

/-!
# The rendering server

A server takes the bytes of a request and gives a response.  The request is checked first; then
the backend is asked for its rasterizer, the scene is put together, and the scene is rendered.
The first step that fails decides the response.
-/

namespace DiagramScene.Service

/-- A rendering server. -/
structure Server where
  settings : Settings
  backend : Backend
  layout : Diagram.Layout

namespace Server

variable {σ : Type}

/-- The layout of a server that has none. -/
def noLayout : Diagram.Layout :=
  .failing (.failed "no diagram layout engine is configured")

/-- A server that loads its fonts when they are needed. -/
def withLayout (settings : Settings) (layout : Diagram.Layout) : Server :=
  ⟨settings, .waiting settings.fonts, layout⟩

/-- A server for scenes alone. -/
def sceneOnly (settings : Settings) : Server := withLayout settings noLayout

/-- The server with another backend. -/
def withBackend (server : Server) (backend : Backend) : Server :=
  { server with backend := backend }

/-- The image of a scene, if it is ready in time. -/
def imageOf (limit : Nat) (rasterizer : Rasterizer) (scene : Scene) : Except ServiceError Image :=
  let rendering := rasterizer scene
  if limit < rendering.elapsed then .error (.timeout limit)
  else rendering.result.mapError fun e => .render e rendering.diagnostics

/-- The response with what came of a request. -/
def respond : Except ServiceError Image → Response
  | .ok image => .success mimePng (.image image)
  | .error e => .error e.status e.responseMessage

/-- Renders the scene that a step gives, once the backend is ready. -/
def run (facesIn : String → Option Nat) (server : Server)
    (makeScene : Except SceneError (Scene × σ)) (s : σ) :
    Except ServiceError Image × Server × σ :=
  let (rasterizer, backend) := server.backend.get facesIn
  let server := server.withBackend backend
  match rasterizer with
  | .error e => (.error (.backend e), server, s)
  | .ok rasterizer =>
    match makeScene with
    | .error e => (.error (.scene e), server, s)
    | .ok (scene, s) => (imageOf server.settings.timeout rasterizer scene, server, s)

/-- Answers a request for the image of given elements. -/
def answerScene (facesIn : String → Option Nat) (source : IdSource σ) (server : Server)
    (body : Bytes) (s : σ) : Response × Server × σ :=
  match SceneRequest.ofBytes body with
  | .error e => (respond (.error (.invalid e)), server, s)
  | .ok request =>
    let scene := Scene.ofElements source .default request.elements request.files request.params s
    let (result, server, s) := run facesIn server (.ok scene) s
    (respond result, server, s)

/-- Answers a request for the image of a diagram. -/
def answerDiagram (facesIn : String → Option Nat) (source : IdSource σ) (server : Server)
    (body : Bytes) (s : σ) : Response × Server × σ :=
  match DiagramRequest.ofBytes body with
  | .error e => (respond (.error (.invalid e)), server, s)
  | .ok request =>
    let scene := Scene.ofDiagram source .default server.layout request.diagram request.config
      request.params s
    let (result, server, s) := run facesIn server scene s
    (respond result, server, s)

end Server

end DiagramScene.Service
