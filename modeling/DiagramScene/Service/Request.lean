import DiagramScene.Element.Codec
import DiagramScene.Json.Reader
import DiagramScene.Scene.Params

/-!
# Requests

A request is a JSON object.  It is checked before anything else happens, and the checks come in
one order, whatever the order of its members: a request with several faults always reports the
same one.  A member that is null counts as absent.
-/

namespace DiagramScene.Service

/-! ### Faults -/

/-- What a number has to satisfy. -/
inductive Range where
  | positive
  | nonNegative
  /-- Above zero and at most one. -/
  | share
  deriving DecidableEq, Repr

/-- A number satisfies the requirement. -/
def Range.admits (x : Float) : Range → Bool
  | positive => decide (0.0 < x)
  | nonNegative => decide (0.0 ≤ x)
  | share => decide (0.0 < x) && decide (x ≤ 1.0)

/-- The wording of a requirement. -/
def Range.message : Range → String
  | positive => "a positive number"
  | nonNegative => "a non-negative number"
  | share => "a number in (0, 1]"

/-- What a member that is no number has to be. -/
inductive MemberType where
  | text
  | bool
  | object
  deriving DecidableEq, Repr

/-- The wording of a type. -/
def MemberType.message : MemberType → String
  | text => "a string"
  | bool => "a boolean"
  | object => "an object"

/-- Why a request is refused. -/
inductive ValidationError where
  /-- The request is no JSON object. -/
  | noObject
  | noElements
  | noDiagram
  | badNumber (key : String) (range : Range)
  | badMember (key : String) (type : MemberType)
  | badElement (index : Nat) (error : Json.DecodeError)
  deriving Repr

/-- The wording of a fault. -/
def ValidationError.message : ValidationError → String
  | noObject => "Invalid JSON body"
  | noElements => "Payload must include a non-empty elements array"
  | noDiagram => "Payload must include a mermaid string"
  | badNumber key range => s!"{key} must be {range.message}"
  | badMember key type => s!"{key} must be {type.message}"
  | badElement index error => s!"Invalid element at index {index}: {error.message}"

/-- The result of a check. -/
abbrev Checked (α : Type) := Except ValidationError α

/-! ### Members -/

/-- The value of a key, unless it is null. -/
def present? (body : Members) (key : String) : Option Json :=
  (body.get? key).filter (!·.isNull)

/-- A member that may be absent, read by a function that says whether its value will do. -/
def optionalMember {α : Type} (read : Json → Option α) (error : ValidationError) (body : Members)
    (key : String) : Checked (Option α) :=
  match present? body key with
  | none => .ok none
  | some value => match read value with
    | some a => .ok (some a)
    | none => .error error

/-- A number in a range. -/
def optionalNumber (body : Members) (key : String) (range : Range) : Checked (Option Float) :=
  optionalMember (fun j => j.number?.filter range.admits) (.badNumber key range) body key

/-- A string. -/
def optionalText (body : Members) (key : String) : Checked (Option String) :=
  optionalMember Json.text? (.badMember key .text) body key

/-- A truth value. -/
def optionalBool (body : Members) (key : String) : Checked (Option Bool) :=
  optionalMember Json.bool? (.badMember key .bool) body key

/-- An object. -/
def optionalObject (body : Members) (key : String) : Checked (Option Members) :=
  optionalMember Json.members? (.badMember key .object) body key

/-- The output parameters of a request, but for the application state. -/
def outputParams (body : Members) : Checked OutputParams := do
  let exportScale ← optionalNumber body "exportScale" .positive
  let exportPadding ← optionalNumber body "exportPadding" .nonNegative
  let maxSize ← optionalNumber body "maxSize" .positive
  let quality ← optionalNumber body "quality" .share
  let backgroundColor ← optionalText body "backgroundColor"
  let darkMode ← optionalBool body "darkMode"
  return { exportScale, exportPadding, maxSize, quality, backgroundColor, darkMode
           appState := none }

/-! ### Requests -/

/-- The members of the object that bytes stand for. -/
def bodyMembers (bytes : Bytes) : Checked Members :=
  match Json.read Json.nestingLimit bytes with
  | .ok (.obj ms) => .ok ms
  | _ => .error .noObject

/-- A request for the image of given elements. -/
structure SceneRequest where
  elements : List (Element Float)
  files : Members
  params : OutputParams
  deriving BEq, Repr

namespace SceneRequest

/-- Reads elements that stand at an index and after it. -/
def readElements (index : Nat) : List Json → Checked (List (Element Float))
  | [] => .ok []
  | j :: js =>
    match Element.codec.decode j with
    | .error e => .error (.badElement index e)
    | .ok e => (readElements (index + 1) js).map (e :: ·)

/-- The elements of a request before they are read; there has to be one. -/
def rawElements (body : Members) : Checked (List Json) :=
  match body.get? "elements" with
  | some (.arr (x :: xs)) => .ok (x :: xs)
  | _ => .error .noElements

/-- Reads a request from its members. -/
def ofMembers (body : Members) : Checked SceneRequest := do
  let raw ← rawElements body
  let params ← outputParams body
  let appState ← optionalObject body "appState"
  let files ← optionalObject body "files"
  let elements ← readElements 0 raw
  return { elements, files := files.getD [], params := { params with appState } }

/-- Reads a request. -/
def ofBytes (bytes : Bytes) : Checked SceneRequest :=
  (bodyMembers bytes).bind ofMembers

end SceneRequest

/-- A request for the image of a diagram. -/
structure DiagramRequest where
  /-- The text of the diagram. -/
  diagram : String
  /-- The overrides of the layout configuration. -/
  config : Option Json
  params : OutputParams
  deriving BEq, Repr

namespace DiagramRequest

/-- The text of the diagram. -/
def diagramText (body : Members) : Checked String :=
  match body.get? "mermaid" with
  | some (.str text) => .ok text
  | _ => .error .noDiagram

/-- Reads a request from its members. -/
def ofMembers (body : Members) : Checked DiagramRequest := do
  let diagram ← diagramText body
  let params ← outputParams body
  let config ← optionalObject body "config"
  return { diagram, config := config.map .obj, params }

/-- Reads a request. -/
def ofBytes (bytes : Bytes) : Checked DiagramRequest :=
  (bodyMembers bytes).bind ofMembers

end DiagramRequest

end DiagramScene.Service
