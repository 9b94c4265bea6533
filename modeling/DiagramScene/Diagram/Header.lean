import DiagramScene.Text.Blank
import DiagramScene.Text.Split

/-!
# The header of a diagram text

The type of a diagram is named by the first word of its text.  Before that word there may be a
block of front matter between lines of dashes, directives between `%%` and braces, and comment
lines that start with `%%`.  `clean` removes these, and a `Registry` names the type by the first
of its detectors whose header matches.
-/

namespace DiagramScene.Diagram

/-! ### Front matter -/

/-- A character that ends a line of front matter. -/
def isLineBreak (c : Char) : Bool := c = '\n' || c = '\r'

/-- The rests of a text behind each line break among its leading blank characters. -/
def afterBreaks : List Char → List (List Char)
  | [] => []
  | c :: cs =>
    if Text.isBlank c then
      if isLineBreak c then cs :: afterBreaks cs else afterBreaks cs
    else []

/-- The three dashes that open and close front matter. -/
def dashes : List Char := ['-', '-', '-']

/-- The text behind a closing line of front matter that starts with the line break at hand. -/
def closing? : List Char → Option (List Char)
  | [] => none
  | c :: cs =>
    if isLineBreak c then (Text.after? dashes cs).bind fun rest => (afterBreaks rest).getLast?
    else none

/-- The text behind the first closing line. -/
def afterClosing? : List Char → Option (List Char)
  | [] => none
  | c :: cs => (closing? (c :: cs)).or (afterClosing? cs)

/-- The text without its front matter, if it has any. -/
def dropFrontMatter (cs : List Char) : List Char :=
  match Text.after? dashes cs with
  | none => cs
  | some rest => ((afterBreaks rest).reverse.findSome? afterClosing?).getD cs

/-! ### Directives and comments -/

/-- The opening of a directive. -/
def directiveStart : List Char := ['%', '%', '\x7b']

/-- The end of a directive. -/
def directiveEnd : List Char := ['\x7d', '%', '%']

/-- The text without its directives.  One that is never ended extends to the end of the text. -/
def dropDirectives (cs : List Char) : List Char :=
  match h : Text.splitAtSeq? directiveStart cs with
  | none => cs
  | some (before, after) =>
    match h' : Text.splitAtSeq? directiveEnd after with
    | none => before
    | some (_, rest) =>
      have : rest.length < cs.length :=
        Nat.lt_trans (Text.length_of_splitAtSeq? (by decide) h')
          (Text.length_of_splitAtSeq? (by decide) h)
      before ++ dropDirectives rest
termination_by cs.length

/-- The text behind a comment that starts here, or behind blank characters that start here.  A
comment ends with its line; the last line of a text has no end and holds no comment. -/
def afterComment? (cs : List Char) : Option (List Char) :=
  match cs.dropWhile Text.isBlank with
  | '%' :: '%' :: rest => (Text.splitAtChar? '\n' rest).map (·.2)
  | _ => none

theorem length_of_afterComment? {cs rest : List Char} (h : afterComment? cs = some rest) :
    rest.length < cs.length := by
  unfold afterComment? at h
  split at h
  · rename_i t ht
    obtain ⟨⟨before, after⟩, hs, rfl⟩ := Option.map_eq_some_iff.1 h
    have h1 := Text.length_of_splitAtChar? hs
    have h2 := (List.dropWhile_sublist Text.isBlank (l := cs)).length_le
    rw [ht] at h2
    simp only [List.length_cons] at h2
    show after.length < cs.length
    omega
  · simp at h

/-- The text with a newline in the place of each comment and of the blank characters before it. -/
def dropComments (cs : List Char) : List Char :=
  match h : afterComment? cs with
  | some rest =>
    have : rest.length < cs.length := length_of_afterComment? h
    '\n' :: dropComments rest
  | none =>
    match cs with
    | [] => []
    | c :: rest => c :: dropComments rest
termination_by cs.length

/-- The text from its header on, as far as front matter, directives and comments hide it. -/
def clean (cs : List Char) : List Char :=
  dropComments (dropDirectives (dropFrontMatter cs))

/-! ### Detectors -/

/-- What a diagram text has to begin with. -/
inductive Header where
  /-- One of the words, behind any blank characters. -/
  | afterBlanks (words : List String)
  /-- The word at the very start. -/
  | atStart (word : String)
  deriving DecidableEq, Repr

/-- The text begins with the header. -/
def Header.isAtStartOf (header : Header) (cs : List Char) : Bool :=
  match header with
  | .afterBlanks words => words.any fun w => w.toList.isPrefixOf (Text.dropBlankStart cs)
  | .atStart word => word.toList.isPrefixOf cs

/-- A character that has a meaning of its own in a pattern. -/
def isPatternSign (c : Char) : Bool :=
  "\\.+*?()|[]\x7b\x7d^$".toList.contains c

/-- The header that a pattern describes: an anchor, blank characters if wanted, and a word. -/
def Header.ofPattern? (pattern : String) : Option Header :=
  let plain (cs : List Char) : Option String :=
    if cs.any isPatternSign then none else some (String.ofList cs)
  match pattern.toList with
  | '^' :: '\\' :: 's' :: '*' :: word => (plain word).map fun w => .afterBlanks [w]
  | '^' :: word => (plain word).map .atStart
  | _ => none

/-- A type of diagram with its header. -/
structure Detector where
  id : String
  header : Header
  deriving DecidableEq, Repr

/-- Detectors in the order in which they are asked. -/
abbrev Registry := List Detector

namespace Registry

/-- The detector of a type whose header words may follow blank characters. -/
def detector (id : String) (words : List String) : Detector := ⟨id, .afterBlanks words⟩

/-- The types that are known from the start. -/
def builtin : Registry := [
  detector "classDiagram" ["classDiagram"],
  detector "er" ["erDiagram"],
  detector "gantt" ["gantt"],
  detector "pie" ["pie"],
  detector "sequence" ["sequenceDiagram"],
  detector "flowchart" ["flowchart", "graph"],
  detector "timeline" ["timeline"],
  detector "gitGraph" ["gitGraph"],
  detector "stateDiagram" ["stateDiagram"],
  detector "journey" ["journey"],
  detector "mindmap" ["mindmap"]]

/-- The type of a cleaned diagram text. -/
def typeOfClean? (registry : Registry) (cs : List Char) : Option String :=
  (registry.find? (·.header.isAtStartOf cs)).map (·.id)

/-- The type of a diagram text, or the cleaned text if no detector knows it. -/
def detect (registry : Registry) (text : String) : Except String String :=
  let cs := clean text.toList
  match registry.typeOfClean? cs with
  | some id => .ok id
  | none => .error (String.ofList cs)

end Registry

end DiagramScene.Diagram
