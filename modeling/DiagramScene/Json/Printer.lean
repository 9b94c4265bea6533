import DiagramScene.Json.Value
import DiagramScene.Number.Notation

/-!
# JSON texts

`compact` writes a value without any blank; `pretty` puts each item and each member on a line of
its own, indented by two spaces for each level, and leaves empty arrays and objects on one line.
-/

namespace DiagramScene.Json

/-- How one character is written inside a JSON string. -/
def escapedChar (c : Char) : List Char :=
  match c with
  | '"' => ['\\', '"']
  | '\\' => ['\\', '\\']
  | '\n' => ['\\', 'n']
  | '\r' => ['\\', 'r']
  | '\t' => ['\\', 't']
  | '\x08' => ['\\', 'b']
  | '\x0c' => ['\\', 'f']
  | c =>
    let n := c.toNat
    if n < 0x20 then
      ['\\', 'u', '0', '0', Nat.digitChar (n / 16), Nat.digitChar (n % 16)]
    else [c]

/-- A string with its quotes. -/
def stringText (s : String) : String :=
  String.ofList ('"' :: s.toList.flatMap escapedChar ++ ['"'])

/-- A number; one that is not finite has no text of its own and is written as null. -/
def numberText : Number → String
  | .int n => toString n
  | .float x => if x.isFinite then Number.exchangeText x else "null"

/-- The text between an opening and a closing bracket. -/
def between (opening closing : Char) (body : String) : String :=
  opening.toString ++ body ++ closing.toString

mutual

/-- The text of a value without any blank. -/
def compact : Json → String
  | null => "null"
  | bool b => if b then "true" else "false"
  | num n => numberText n
  | str s => stringText s
  | arr xs => between '[' ']' (",".intercalate (compactItems xs))
  | obj ms => between '\x7b' '\x7d' (",".intercalate (compactMembers ms))

/-- The texts of the items of an array. -/
def compactItems : List Json → List String
  | [] => []
  | x :: xs => compact x :: compactItems xs

/-- The texts of the members of an object. -/
def compactMembers : List (String × Json) → List String
  | [] => []
  | (k, v) :: ms => (stringText k ++ ":" ++ compact v) :: compactMembers ms

end

/-- The start of a line at a level. -/
def indent (level : Nat) : String :=
  String.ofList ('\n' :: List.replicate (2 * level) ' ')

/-- Lines between brackets, each indented one level more than the brackets. -/
def block (opening closing : Char) (level : Nat) (parts : List String) : String :=
  if parts.isEmpty then between opening closing ""
  else between opening closing
    (",".intercalate (parts.map (indent (level + 1) ++ ·)) ++ indent level)

mutual

/-- The indented text of a value that stands at a level. -/
def prettyAt (level : Nat) : Json → String
  | null => "null"
  | bool b => if b then "true" else "false"
  | num n => numberText n
  | str s => stringText s
  | arr xs => block '[' ']' level (prettyItems (level + 1) xs)
  | obj ms => block '\x7b' '\x7d' level (prettyMembers (level + 1) ms)

/-- The indented texts of the items of an array. -/
def prettyItems (level : Nat) : List Json → List String
  | [] => []
  | x :: xs => prettyAt level x :: prettyItems level xs

/-- The indented texts of the members of an object. -/
def prettyMembers (level : Nat) : List (String × Json) → List String
  | [] => []
  | (k, v) :: ms => (stringText k ++ ": " ++ prettyAt level v) :: prettyMembers level ms

end

/-- The indented text of a value. -/
def pretty (j : Json) : String := prettyAt 0 j

end DiagramScene.Json
