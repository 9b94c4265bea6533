import DiagramScene.Json.Value
import DiagramScene.Number.Reading
import DiagramScene.Text.Blank

/-!
# Arguments

The words of a command line are options, some of which take the next word as their value, and bare
words: the command and the input.  `readWords` tells them apart, which depends on the words alone;
`Draft.place` then puts them in their places.  An option may stand anywhere, and of two settings
of one kind the later counts.  There is one way for a command line to be wrong: it is none.
-/

namespace DiagramScene.Cli

/-- What the program is asked to do. -/
inductive Command where
  /-- Make an image of a scene. -/
  | scene
  /-- Make an image of a diagram. -/
  | diagram
  /-- List the labels of classes. -/
  | labels
  /-- Compile a document. -/
  | document
  deriving DecidableEq, Repr

/-- The words for commands. -/
def Command.words : List (String × Command) :=
  [("render", .scene), ("mermaid", .diagram), ("labels", .labels), ("dsl", .document)]

/-- The forms that a result can have. -/
inductive Format where
  | json
  | png
  | jpeg
  | svg
  deriving DecidableEq, Repr

namespace Format

/-- The words for formats. -/
def words : List (String × Format) :=
  [("json", .json), ("png", .png), ("jpg", .jpeg), ("jpeg", .jpeg), ("svg", .svg)]

/-- The format that a word stands for. -/
def ofWord? (word : String) : Option Format :=
  words.lookup (String.ofList ((Text.trimChars word.toList).map Char.toLower))

/-- The extension of files in a format. -/
def extension : Format → String
  | json => "json"
  | png => "png"
  | jpeg => "jpg"
  | svg => "svg"

/-- The format is that of painted images. -/
def isPainted : Format → Bool
  | png | jpeg => true
  | json | svg => false

end Format

/-! ### Options -/

/-- What options say. -/
structure Options where
  format : Option Format
  /-- What is asked of the image, as members of a request. -/
  output : Members
  /-- The file with the layout of a diagram. -/
  layout : Option String
  /-- The overrides of the layout configuration, as a JSON text. -/
  config : Option String
  /-- The scene itself is wanted, and no image of it. -/
  emitsScene : Bool
  /-- JSON texts are indented. -/
  pretty : Bool
  /-- Where the result goes. -/
  out : Option String
  deriving BEq, Repr

/-- Nothing is said. -/
def Options.none : Options := ⟨.none, [], .none, .none, false, false, .none⟩

/-- One option with its value. -/
inductive Setting where
  | format (format : Format)
  | output (members : Members)
  | layout (path : String)
  | config (text : String)
  | emitsScene
  | pretty
  | out (path : String)
  deriving BEq, Repr

/-- The options with one more. -/
def Options.set (o : Options) : Setting → Options
  | .format format => { o with format }
  | .output members => { o with output := o.output.putAll members }
  | .layout path => { o with layout := path }
  | .config text => { o with config := text }
  | .emitsScene => { o with emitsScene := true }
  | .pretty => { o with pretty := true }
  | .out path => { o with out := path }

/-- The words that ask for help. -/
def helpWords : List String := ["--help", "-h"]

/-- The options without a value. -/
def flags : List (String × Setting) := [
  ("--pretty", .pretty),
  ("--emit-scene", .emitsScene),
  ("--dark", .output [("darkMode", .bool true)])]

/-- A finite number as the value of an option. -/
def numberSetting? (key word : String) : Option Setting :=
  ((Number.readDecimal? (Text.trimmed word)).filter Float.isFinite).map fun x =>
    .output [(key, Json.float x)]

/-- A background as the value of an option; a blank one says nothing. -/
def backgroundSetting (word : String) : Setting :=
  let color := Text.trimmed word
  .output (if color.isEmpty then [] else [("backgroundColor", .str color)])

/-- The options with a value. -/
def valuedOptions : List (String × (String → Option Setting)) := [
  ("--format", fun w => (Format.ofWord? w).map .format),
  ("--scale", numberSetting? "exportScale"),
  ("--padding", numberSetting? "exportPadding"),
  ("--max-size", numberSetting? "maxSize"),
  ("--quality", numberSetting? "quality"),
  ("--background", fun w => some (backgroundSetting w)),
  ("--layout", fun w => some (.layout w)),
  ("--config", fun w => some (.config w)),
  ("--out", fun w => some (.out w))]

/-! ### Words -/

/-- A word of a command line, or an option with its value. -/
inductive Word where
  | setting (s : Setting)
  /-- A command or the input. -/
  | bare (text : String)
  /-- The input, whatever it looks like. -/
  | input (text : String)
  deriving BEq, Repr

/-- The words for the standard streams. -/
def standardStream : String := "-"

/-- The word looks like an option and is none. -/
def isUnknownOption (word : String) : Bool :=
  word != standardStream && word.toList.head? == some '-'

/-- What the words of a command line are.  After two dashes there may be one more word, which is
the input. -/
def readWords : List String → Option (List Word)
  | [] => some []
  | ["--"] => some []
  | ["--", text] => some [.input text]
  | word :: rest =>
    if word = "--" || helpWords.contains word then none
    else match flags.lookup word with
      | some s => (readWords rest).map (.setting s :: ·)
      | none => match valuedOptions.lookup word, rest with
        | some _, [] => none
        | some read, value :: rest => do
          let s ← read value
          let words ← readWords rest
          some (.setting s :: words)
        | none, rest =>
          if isUnknownOption word then none
          else (readWords rest).map (.bare word :: ·)

/-! ### The command line -/

/-- What the words so far say. -/
structure Draft where
  command : Option Command
  input : Option String
  options : Options
  deriving BEq, Repr

namespace Draft

/-- No words. -/
def empty : Draft := ⟨none, none, .none⟩

/-- The draft with an input, unless it has one. -/
def setInput? (d : Draft) (text : String) : Option Draft :=
  if d.input.isSome then none else some { d with input := text }

/-- The draft after one more word.  The first word that is a command counts as one. -/
def place (d : Draft) : Word → Option Draft
  | .setting s => some { d with options := d.options.set s }
  | .input text => d.setInput? text
  | .bare text =>
    match d.command, Command.words.lookup text with
    | none, some command => some { d with command }
    | _, _ => d.setInput? text

end Draft

/-- The arguments of a run. -/
structure Args where
  command : Command
  input : Option String
  options : Options
  deriving BEq, Repr

/-- The command can have its result in the wanted format, and a diagram has a layout. -/
def isComplete (command : Command) (options : Options) : Bool :=
  match command with
  | .scene => options.format != some .json
  | .diagram => options.layout.isSome && options.format != some .json
  | .labels | .document => true

/-- The arguments that a draft amounts to. -/
def Draft.finish? (d : Draft) : Option Args := do
  let command ← d.command
  if isComplete command d.options then some ⟨command, d.input, d.options⟩ else none

/-- The arguments that words stand for. -/
def Args.ofWords? (words : List String) : Option Args := do
  let words ← readWords words
  let draft ← words.foldlM Draft.place .empty
  draft.finish?

/-- How the program is used. -/
def usage : String := "\n".intercalate [
  "scrawl",
  "",
  "USAGE:",
  "scrawl render [--format png|jpg|svg] [OUTPUT FLAGS] [--out <path>] [<scene.json>|-]",
  "scrawl mermaid --layout <layout.json> [--config <json>] [--emit-scene] " ++
    "[--format png|jpg|svg] [OUTPUT FLAGS] [--out <path>] [<diagram>|-]",
  "scrawl labels [--pretty] [<diagram>|-]",
  "scrawl dsl [--format json|png|jpg|svg] [OUTPUT FLAGS] [--out <path>] [<dsl.json>|-]",
  "",
  "OUTPUT FLAGS:",
  "--scale <n> --padding <n> --max-size <n> --quality <q> --background <css-color> --dark",
  "",
  "NOTES:",
  "- If <path> is omitted or '-', input is read from stdin.",
  "- PNG and JPG output defaults to writing next to the input file (or ./out.<ext> for stdin).",
  "- SVG and JSON output is printed to stdout unless --out is given.",
  "- '--out -' writes raster bytes to stdout.",
  "- Logging goes to stderr; set SCRAWL_LOG (e.g. SCRAWL_LOG=debug) to change the level.",
  ""]

end DiagramScene.Cli
