import DiagramScene.Number.Notation
import DiagramScene.Number.Whole
import DiagramScene.Svg.Escape

/-!
# Markup

A document is a tree of nodes, and `Node.chars` is the one place where nodes become text.
Attribute values and character data are escaped there, so that no text of a scene can open or
close a tag or an attribute.
-/

namespace DiagramScene.Svg

/-- The name and the value of an attribute. -/
abbrev Attribute := String × String

/-- A node of a document. -/
inductive Node where
  /-- A tag that closes itself. -/
  | leaf (name : String) (attributes : List Attribute)
  /-- A tag around other nodes. -/
  | branch (name : String) (attributes : List Attribute) (children : List Node)
  /-- Character data. -/
  | text (content : String)
  deriving Repr

/-- The text of attributes, each after a space. -/
def attributeChars (attributes : List Attribute) : List Char :=
  attributes.flatMap fun a =>
    ' ' :: a.1.toList ++ '=' :: '"' :: escape a.2.toList ++ ['"']

/-- The opening of a tag up to its end. -/
def openingChars (name : String) (attributes : List Attribute) : List Char :=
  '<' :: name.toList ++ attributeChars attributes

/-- The closing tag of a name. -/
def closingChars (name : String) : List Char :=
  '<' :: '/' :: name.toList ++ ['>']

mutual

/-- The text of a node. -/
def Node.chars : Node → List Char
  | .leaf name attributes => openingChars name attributes ++ ['/', '>']
  | .branch name attributes children =>
    openingChars name attributes ++ '>' :: charsOfList children ++ closingChars name
  | .text content => escape content.toList

/-- The text of nodes, one behind the other. -/
def charsOfList : List Node → List Char
  | [] => []
  | n :: ns => Node.chars n ++ charsOfList ns

end

/-- The text of a node. -/
def Node.render (n : Node) : String := String.ofList n.chars

/-! ### Numbers -/

/-- A number in thousandths, rounded. -/
def toThousandths (x : Float) : Float :=
  Number.roundWith .nearestAway (x * 1000.0) / 1000.0

/-- A number as it is written in a document: up to three decimals and no sign on zero.  A value
that is not finite counts as zero. -/
def numberText (x : Float) : String :=
  if !x.isFinite then "0"
  else
    let y := toThousandths x
    Number.plainText (if y == 0.0 then 0.0 else y)

theorem charsOfList_nil : charsOfList [] = [] := by simp [charsOfList]

theorem charsOfList_cons (n : Node) (ns : List Node) :
    charsOfList (n :: ns) = n.chars ++ charsOfList ns := by simp [charsOfList]

theorem charsOfList_append (ns ms : List Node) :
    charsOfList (ns ++ ms) = charsOfList ns ++ charsOfList ms := by
  induction ns with
  | nil => rw [List.nil_append, charsOfList_nil, List.nil_append]
  | cons n ns ih => rw [List.cons_append, charsOfList_cons, charsOfList_cons, ih, List.append_assoc]

theorem charsOfList_eq_flatMap (ns : List Node) : charsOfList ns = ns.flatMap Node.chars := by
  induction ns with
  | nil => rw [charsOfList_nil, List.flatMap_nil]
  | cons n ns ih => rw [charsOfList_cons, List.flatMap_cons, ih]

end DiagramScene.Svg
