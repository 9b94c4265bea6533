import DiagramScene.Text.Utf8

/-!
# Escaping

A character that has a meaning in markup is written as an entity.  A text is looked through byte by
byte, and what lies between two such characters is written as one slice of it: `pieces` lists the
slices and the entities in their order, and `escape` puts them together.
-/

namespace DiagramScene.Svg

/-- The characters that have a meaning in markup. -/
def markupSigns : List Char := ['&', '<', '>', '"', '\'']

/-- How a character is written in attribute values and character data. -/
def escapedChar : Char → List Char
  | '&' => ['&', 'a', 'm', 'p', ';']
  | '<' => ['&', 'l', 't', ';']
  | '>' => ['&', 'g', 't', ';']
  | '"' => ['&', 'q', 'u', 'o', 't', ';']
  | '\'' => ['&', '#', '3', '9', ';']
  | c => [c]

/-- What is written for a part of a text. -/
inductive Piece where
  /-- The text from one byte position up to another one. -/
  | slice (start stop : Nat)
  /-- The entity of a character. -/
  | entity (c : Char)
  deriving DecidableEq, Repr

/-- The characters of a piece of a text. -/
def Piece.chars (text : String) : Piece → List Char
  | slice start stop => (String.Pos.Raw.extract text ⟨start⟩ ⟨stop⟩).toList
  | entity c => escapedChar c

/-- The slice between two positions, if there is anything between them. -/
def sliceBetween (start stop : Nat) : List Piece :=
  if start < stop then [.slice start stop] else []

/-- The pieces of a text from the position `start` on, where the bytes from `position` on have not
been looked at. -/
def piecesFrom (start position : Nat) : Bytes → List Piece
  | [] => sliceBetween start position
  | b :: bs =>
    let c := Char.ofUInt8 b
    if markupSigns.contains c then
      sliceBetween start position ++
        .entity c :: piecesFrom (position + 1) (position + 1) bs
    else piecesFrom start (position + 1) bs

/-- The pieces of a text. -/
def pieces (text : String) : List Piece := piecesFrom 0 0 (Text.Utf8.encode text)

/-- A text with the characters escaped that have a meaning in markup. -/
def escape (cs : List Char) : List Char :=
  let text := String.ofList cs
  (pieces text).flatMap (Piece.chars text)

end DiagramScene.Svg
