import DiagramScene.Json.Value
import DiagramScene.Text.Split

/-!
# Layout configuration

The configuration of a layout is a JSON value.  `merge` lays the overrides of a caller over it:
where both have an object the members are merged key by key, everywhere else the override counts.
Values are looked up by paths of keys.
-/

namespace DiagramScene.Diagram

mutual

/-- The first value with the overrides of the second laid over it. -/
def merge (target : Json) : Json → Json
  | .obj overrides =>
    match target with
    | .obj ms => .obj (mergeMembers ms overrides)
    | _ => .obj overrides
  | other => other

/-- The members with overrides laid over them, one key after the other. -/
def mergeMembers (ms : Members) : List (String × Json) → Members
  | [] => ms
  | (key, value) :: rest =>
    let merged := match ms.get? key with
      | some old => merge old value
      | none => value
    mergeMembers (ms.put key merged) rest

end

/-- The configuration without any setting. -/
def emptyConfig : Json := .obj []

/-- The settings of every layout: labels are plain text, so that they can be made elements. -/
def defaultConfig : Json :=
  .obj [
    ("flowchart", .obj [("htmlLabels", .bool false)]),
    ("class", .obj [("htmlLabels", .bool false)])]

/-- The configuration of a layout with the overrides of a caller. -/
def configFor (overrides : Option Json) : Json :=
  match overrides with
  | none => defaultConfig
  | some o => merge defaultConfig o

/-- The value at a path of keys. -/
def valueAt? : List String → Json → Option Json
  | [], j => some j
  | key :: keys, j => (j.get? key).bind (valueAt? keys)

/-- The keys of a path that is written with points. -/
def pathKeys (path : String) : List String :=
  (Text.splitOn '.' path.toList).map String.ofList

/-- The value at a path that is written with points. -/
def setting? (config : Json) (path : String) : Option Json :=
  valueAt? (pathKeys path) config

end DiagramScene.Diagram
