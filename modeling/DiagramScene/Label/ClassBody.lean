import DiagramScene.Keyed
import DiagramScene.Text.Blank
import DiagramScene.Text.Lines
import DiagramScene.Text.Split

/-!
# Labels of class bodies

A diagram text declares a class by a line `class Name`, or by a block `class Name {`, members,
`}`.  `ClassLabels.ofText` collects a label for each class: its name, followed by its members on
lines of their own.  The last declaration of a class counts; its place is that of the first one.

The scan reads line by line and is either outside of a block or inside one.  A block ends with the
first line that has a closing brace; what stands there before the brace is its last member.  A
block that is never closed extends to the end of the text, and a block without a name is passed
over.
-/

namespace DiagramScene

/-- Labels by class name, in the order of the classes. -/
abbrev ClassLabels := Keyed String

namespace ClassLabels

/-- What the scan has to remember of the lines before. -/
inductive Scan where
  /-- No block is open. -/
  | outside
  /-- The block of a class is open and has these members so far. -/
  | inside (name : List Char) (members : List (List Char))
  deriving DecidableEq, Repr

/-- The members with one more, if it is not blank. -/
def addMember (members : List (List Char)) (raw : List Char) : List (List Char) :=
  let member := Text.trimChars raw
  if member.isEmpty then members else members ++ [member]

/-- The label of a class. -/
def labelOf (name : List Char) (members : List (List Char)) : List Char :=
  Text.join ['\n'] (name :: members)

/-- The labels with that of a class; a class without a name has none. -/
def declare (labels : ClassLabels) (name : List Char) (members : List (List Char)) : ClassLabels :=
  if name.isEmpty then labels
  else labels.put (String.ofList name) (String.ofList (labelOf name members))

/-- The word that begins a declaration, with the space behind it. -/
def keyword : List Char := ['c', 'l', 'a', 's', 's', ' ']

/-- The rest of a line that begins with the word `class`. -/
def declaration? (line : List Char) : Option (List Char) :=
  (Text.after? keyword (Text.trimChars line)).map Text.trimChars

/-- Reads a line outside of a block. -/
def readOutside (labels : ClassLabels) (line : List Char) : ClassLabels × Scan :=
  match declaration? line with
  | none => (labels, .outside)
  | some rest =>
    match Text.splitAtChar? '\x7b' rest with
    | none =>
      match Text.words rest with
      | [] => (labels, .outside)
      | name :: _ => (declare labels name [], .outside)
    | some (head, after) =>
      let name := Text.trimChars head
      match Text.splitAtChar? '\x7d' after with
      | some (inner, _) => (declare labels name (addMember [] inner), .outside)
      | none => (labels, .inside name (addMember [] after))

/-- Reads a line inside the block of a class. -/
def readInside (labels : ClassLabels) (name : List Char) (members : List (List Char))
    (line : List Char) : ClassLabels × Scan :=
  match Text.splitAtChar? '\x7d' line with
  | some (tail, _) => (declare labels name (addMember members tail), .outside)
  | none => (labels, .inside name (addMember members line))

/-- Reads one line. -/
def readLine (state : ClassLabels × Scan) (line : List Char) : ClassLabels × Scan :=
  match state.2 with
  | .outside => readOutside state.1 line
  | .inside name members => readInside state.1 name members line

/-- Ends the scan; an open block ends with it. -/
def close (state : ClassLabels × Scan) : ClassLabels :=
  match state.2 with
  | .outside => state.1
  | .inside name members => declare state.1 name members

/-- The state of the scan after the lines of a text. -/
def scan (cs : List Char) : ClassLabels × Scan :=
  (Text.lines cs).foldl readLine ([], .outside)

/-- The labels of the classes that a diagram text declares. -/
def ofText (text : String) : ClassLabels :=
  close (scan text.toList)

end ClassLabels

end DiagramScene
