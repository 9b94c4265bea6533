import DiagramScene.Cli.Args
import DiagramScene.Cli.Files
import DiagramScene.Dsl.Compile
import DiagramScene.Label.Codec
import DiagramScene.Service.Server

/-!
# Runs

A run reads its input, makes what the command asks for, and hands it on to a file or to the
standard output.  It is a function of the arguments and of the world around it.

PNG images go through the rendering service, with the same request that a client would send: the
request is written down as JSON and read again.  All other images are made directly.
-/

namespace DiagramScene.Cli

open Service

/-- What a run finds around it. -/
structure World where
  /-- The bytes of the standard input. -/
  input : Bytes
  /-- The bytes of a file. -/
  read : String → Except FileError Bytes
  settings : Settings
  /-- The number of fonts in a directory. -/
  facesIn : String → Option Nat
  /-- The time in milliseconds. -/
  now : Int64

/-- Why a run fails. -/
inductive CliError where
  | file (error : FileError)
  | json (error : Json.SyntaxError)
  /-- The input is neither an object nor an array of elements. -/
  | noScene
  | invalid (error : ValidationError)
  | scene (error : SceneError)
  | layout (error : Diagram.LayoutError)
  | document (error : Dsl.Error)
  | raster (error : RasterError) (diagnostics : Diagnostics)
  /-- The service has refused the request. -/
  | refused (status : Nat) (message : String)
  deriving Repr

/-- The wording of an error. -/
def CliError.message : CliError → String
  | file error => s!"I/O error: {error.message}"
  | json error => s!"JSON error: {error.message}"
  | noScene => "scene input must be a JSON object or an element array"
  | invalid error => error.message
  | scene error => error.message
  | layout error => error.message
  | document error => error.message
  | raster error diagnostics => withDiagnostics error.message diagnostics
  | refused status message => s!"render failed (status {status}): {message}"

/-- Where a result goes. -/
inductive Target where
  | standardOutput
  | file (path : String)
  deriving DecidableEq, Repr

/-- A result and where it goes. -/
structure Delivery where
  content : Content
  target : Target
  deriving DecidableEq, Repr

/-- What a run amounts to. -/
abbrev Ran (α : Type) := Except CliError α

/-! ### Input -/

/-- The text of bytes. -/
def textOf (bytes : Bytes) : Ran String :=
  match Text.Utf8.decode? bytes with
  | some text => .ok text
  | none => .error (.file .notText)

/-- The text of a file. -/
def readFile (world : World) (path : String) : Ran String :=
  ((world.read path).mapError .file).bind textOf

/-- The text of the input, which is a file or the standard input. -/
def readInput (world : World) : Option String → Ran String
  | none => textOf world.input
  | some path => if path = standardStream then textOf world.input else readFile world path

/-- The value that a text stands for. -/
def readJson (text : String) : Ran Json := (Json.readText text).mapError .json

/-- The request for the image of the scene in a text, which may be its elements alone. -/
def scenePayload (text : String) : Ran Members := do
  match ← readJson text with
  | .obj ms => .ok ms
  | .arr xs => .ok [("elements", .arr xs)]
  | _ => .error .noScene

/-! ### Results -/

/-- Where texts go. -/
def textTarget : Option String → Target
  | none => .standardOutput
  | some path => if path = standardStream then .standardOutput else .file path

/-- The file for a painted image, beside the input. -/
def defaultPath (input : Option String) (extension : String) : String :=
  match input with
  | some path =>
    if path = standardStream then "out." ++ extension else Path.withExtension path extension
  | none => "out." ++ extension

/-- A JSON text on lines of its own. -/
def jsonDelivery (options : Options) (j : Json) : Delivery :=
  let text := if options.pretty then Json.pretty j else Json.compact j
  ⟨.ofText (text.push '\n'), textTarget options.out⟩

/-- An image in a format. -/
def imageDelivery (args : Args) (format : Format) (content : Content) : Delivery :=
  if format.isPainted then
    let path := args.options.out.getD (defaultPath args.input format.extension)
    ⟨content, textTarget (some path)⟩
  else ⟨content, textTarget args.options.out⟩

/-! ### Images -/

/-- The type of images in a format. -/
def mimeTypeOf : Format → String
  | .jpeg => mimeJpeg
  | .svg => mimeSvg
  | .png | .json => mimePng

/-- The image of a scene, made directly. -/
def renderDirectly (world : World) (format : Format) (scene : Scene) : Ran Content := do
  let fonts ← (Fonts.load world.facesIn world.settings.fonts).mapError (.raster · [])
  let rendering := Backend.rasterizerWith fonts (scene.withMimeType (mimeTypeOf format))
  let image ← rendering.result.mapError (.raster · rendering.diagnostics)
  return .image image

/-- What a response of the service carries. -/
def contentOf (response : Response) : Ran Content :=
  if response.isSuccess then .ok response.body
  else .error (.refused response.status (response.errorMessage?.getD ""))

/-- A request as it is sent. -/
def sent (payload : Members) : Bytes := Text.Utf8.encode (Json.compact (.obj payload))

variable {σ : Type}

/-- The image that a request for given elements asks for. -/
def renderPayload (source : IdSource σ) (world : World) (format : Format) (payload : Members)
    (s : σ) : Ran Content :=
  if format = .png then
    let server := Server.sceneOnly world.settings
    contentOf (server.answerScene world.facesIn source (sent payload) s).1
  else do
    let request ← (SceneRequest.ofMembers payload).mapError .invalid
    let scene := Scene.ofElements source .default request.elements request.files request.params s
    renderDirectly world format scene.1

/-! ### Commands -/

/-- Lists the labels of the classes in a diagram. -/
def runLabels (args : Args) (text : String) : Delivery :=
  jsonDelivery args.options (ClassLabels.ofText text).encode

/-- Makes an image of a scene. -/
def runScene (source : IdSource σ) (world : World) (args : Args) (text : String) (s : σ) :
    Ran Delivery := do
  let format := args.options.format.getD .png
  let payload ← scenePayload text
  let content ← renderPayload source world format (payload.putAll args.options.output) s
  return imageDelivery args format content

/-- Compiles a document, to elements or further on to an image. -/
def runDocument (source : IdSource σ) (world : World) (args : Args) (text : String) (s : σ) :
    Ran Delivery := do
  let format := args.options.format.getD .json
  let document ← readJson text
  let elements ← (Dsl.compileJson document world.now).mapError .document
  let encoded := Json.arr (elements.map Element.codec.encode)
  if format = .json then return jsonDelivery args.options encoded
  else
    let payload : Members := [("elements", encoded)]
    let content ← renderPayload source world format (payload.putAll args.options.output) s
    return imageDelivery args format content

/-- The request for the image of a diagram. -/
def diagramPayload (args : Args) (text : String) : Ran Members := do
  let payload : Members := [("mermaid", .str text)]
  let payload ← match args.options.config with
    | none => Except.ok payload
    | some raw => (readJson raw).map fun config => payload.put "config" config
  return payload.putAll args.options.output

/-- The scene that a request for a diagram asks for. -/
def diagramScene (source : IdSource σ) (layout : Diagram.Layout) (payload : Members) (s : σ) :
    Ran Scene := do
  let request ← (DiagramRequest.ofMembers payload).mapError .invalid
  let made := Scene.ofDiagram source .default layout request.diagram request.config request.params s
  let scene ← made.mapError .scene
  return scene.1

/-- Makes an image of a diagram, or gives the scene of it. -/
def runDiagram (source : IdSource σ) (world : World) (args : Args) (text : String) (s : σ) :
    Ran Delivery := do
  let format := args.options.format.getD .png
  let recorded ← readFile world (args.options.layout.getD "")
  let layout ← (Diagram.LayoutResult.ofText recorded).mapError .layout
  let payload ← diagramPayload args text
  if format = .png ∧ ¬args.options.emitsScene then
    let server := Server.withLayout world.settings (.recorded layout)
    let content ← contentOf (server.answerDiagram world.facesIn source (sent payload) s).1
    return imageDelivery args format content
  else
    let scene ← diagramScene source (.recorded layout) payload s
    if args.options.emitsScene then return jsonDelivery args.options scene.toExport
    else
      let content ← renderDirectly world format scene
      return imageDelivery args format content

/-- Does what the arguments ask for. -/
def run (source : IdSource σ) (world : World) (args : Args) (s : σ) : Ran Delivery := do
  let text ← readInput world args.input
  match args.command with
  | .labels => return runLabels args text
  | .scene => runScene source world args text s
  | .document => runDocument source world args text s
  | .diagram => runDiagram source world args text s

/-! ### Whole runs -/

/-- What can be seen of a run. -/
structure Outcome where
  status : Nat
  output : Content
  errors : String
  files : Files
  deriving Repr

/-- The standard output on which nothing is written. -/
def noOutput : Content := .bytes []

/-- The outcome of a command line that is wrong. -/
def misused (files : Files) : Outcome := ⟨2, noOutput, usage.push '\n', files⟩

/-- The outcome of a run that fails. -/
def failed (files : Files) (e : CliError) : Outcome := ⟨1, noOutput, e.message.push '\n', files⟩

/-- Hands a result on. -/
def deliver (files : Files) (d : Delivery) : Outcome :=
  match d.target with
  | .standardOutput => ⟨0, d.content, "", files⟩
  | .file path => match files.write path d.content with
    | .error e => failed files (.file e)
    | .ok (.stored files) => ⟨0, noOutput, "", files⟩
    | .ok .shown => ⟨0, d.content, "", files⟩
    | .ok .gone => ⟨0, noOutput, "", files⟩

/-- The bytes of what a path leads to from a directory with files. -/
def bytesIn (files : Files) (input : Bytes) (path : String) : Except FileError Bytes := do
  match (← files.read (.bytes input) path).bytes? with
  | some bytes => .ok bytes
  | none => .error .notText

/-- A whole run in a directory with files. -/
def execute (source : IdSource σ) (settings : Settings) (now : Int64) (files : Files)
    (input : Bytes) (words : List String) (s : σ) : Outcome :=
  match Args.ofWords? words with
  | none => misused files
  | some args =>
    let facesIn (path : String) : Option Nat :=
      if files.hasDirectory path then some 0 else none
    let world : World := ⟨input, bytesIn files input, settings, facesIn, now⟩
    match run source world args s with
    | .error e => failed files e
    | .ok d => deliver files d

end DiagramScene.Cli
