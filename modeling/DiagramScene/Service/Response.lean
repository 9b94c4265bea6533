import DiagramScene.Json.Printer
import DiagramScene.Json.Reader
import DiagramScene.Raster.Render

/-!
# Responses

A response has a status, headers and a body.  The body of an error is a JSON object with its
message; responses are never to be stored.
-/

namespace DiagramScene.Service

/-- A response. -/
structure Response where
  status : Nat
  headers : List (String × String)
  body : Content
  deriving DecidableEq, Repr

namespace Response

/-- The headers of a response with content of a type. -/
def headersFor (contentType : String) : List (String × String) :=
  [("Content-Type", contentType), ("Cache-Control", "no-store")]

/-- The response with content of a type. -/
def success (mimeType : String) (body : Content) : Response :=
  ⟨200, headersFor mimeType, body⟩

/-- The body of an error. -/
def errorBody (message : String) : Json := .obj [("error", .str message)]

/-- The response with an error. -/
def error (status : Nat) (message : String) : Response :=
  ⟨status, headersFor "application/json",
    .ofText (Json.compact (errorBody message))⟩

/-- The response carries what was asked for. -/
def isSuccess (r : Response) : Bool := decide (200 ≤ r.status ∧ r.status < 300)

/-- The value of a header.  The case of ASCII letters in its name does not matter. -/
def header? (r : Response) (name : String) : Option String :=
  let lower (s : String) : List Char := s.toList.map Char.toLower
  (r.headers.find? fun h => lower h.1 == lower name).map (·.2)

/-- The message of an error. -/
def errorMessage? (r : Response) : Option String := do
  let bytes ← r.body.bytes?
  let value ← (Json.read Json.nestingLimit bytes).toOption
  (← value.get? "error").text?

end Response

end DiagramScene.Service
