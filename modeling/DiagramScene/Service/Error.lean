import DiagramScene.Raster.Render
import DiagramScene.Scene.Pipeline
import DiagramScene.Service.Request

/-!
# Errors of the service

Every error has a status: the caller is at fault for what is wrong with a request and for a
diagram that is not understood, and the service for everything else.
-/

namespace DiagramScene.Service

/-- Why a request has no image. -/
inductive ServiceError where
  | invalid (error : ValidationError)
  /-- There is no scene. -/
  | scene (error : SceneError)
  /-- A scene in JSON cannot be read. -/
  | sceneText (error : Json.SyntaxError)
  /-- There is nothing that could render. -/
  | backend (error : RasterError)
  | render (error : RasterError) (diagnostics : Diagnostics)
  /-- It took longer than the given number of milliseconds. -/
  | timeout (limit : Nat)
  | closed
  /-- Rendering broke off. -/
  | aborted (reason : String)
  deriving Repr

namespace ServiceError

/-- The wording of an error. -/
def message : ServiceError → String
  | invalid error => error.message
  | scene error => error.message
  | sceneText error => s!"invalid scene JSON: {error.message}"
  | backend error => error.message
  | render error _ => error.message
  | timeout limit => s!"render timed out after {limit} ms"
  | closed => "render service is not accepting work"
  | aborted reason => s!"render task failed: {reason}"

/-- The caller is at fault. -/
def isClientError : ServiceError → Bool
  | invalid _ => true
  | scene error => error.isClientError
  | sceneText _ => true
  | _ => false

/-- The status of the response. -/
def status (e : ServiceError) : Nat := if e.isClientError then 400 else 500

/-- What was left out before rendering failed. -/
def diagnostics? : ServiceError → Option Diagnostics
  | render _ diagnostics => some diagnostics
  | _ => none

end ServiceError

/-- A message with the diagnostics that belong to it, if there are any. -/
def withDiagnostics (message : String) (diagnostics : Diagnostics) : String :=
  if diagnostics.isEmpty then message
  else message ++ " | Diagnostics: " ++ diagnostics.summary

/-- The message for the caller. -/
def ServiceError.responseMessage (e : ServiceError) : String :=
  withDiagnostics e.message (e.diagnostics?.getD [])

end DiagramScene.Service
