/-!
# Lines of a text

Two readings of "the lines of a text" are in use.  `pieces` cuts at every newline, so a text that
ends in a newline has an empty last line; `lines` treats a newline as the end of a line, so the
same text has no such line.  Both take a carriage return before a newline as part of the line end;
`textLines` takes one at the very end of the text in the same way, `lines` keeps that one.
-/

namespace DiagramScene.Text

/-- The parts of a text between its newlines: one more than there are newlines. -/
def pieces : List Char → List (List Char)
  | [] => [[]]
  | c :: cs =>
    if c = '\n' then [] :: pieces cs
    else match pieces cs with
      | [] => [[c]]
      | p :: ps => (c :: p) :: ps

/-- The line without a carriage return at its end. -/
def dropReturn (cs : List Char) : List Char :=
  if cs.getLast? = some '\r' then cs.dropLast else cs

/-- The lines of a text as they are measured and drawn. -/
def textLines (cs : List Char) : List (List Char) :=
  (pieces cs).map dropReturn

/-- The lines of a text whose last newline opens no further line. -/
def lines (cs : List Char) : List (List Char) :=
  close (pieces cs)
where
  /-- Every piece but the last was ended by a newline; an empty last piece is no line. -/
  close : List (List Char) → List (List Char)
    | [] => []
    | [p] => if p.isEmpty then [] else [p]
    | p :: ps => dropReturn p :: close ps

theorem pieces_nil : pieces [] = [[]] := rfl

theorem pieces_ne_nil (cs : List Char) : pieces cs ≠ [] := by
  cases cs with
  | nil => simp [pieces]
  | cons c cs =>
    unfold pieces
    split
    · simp
    · split <;> simp

theorem pieces_newline (cs : List Char) : pieces ('\n' :: cs) = [] :: pieces cs := by
  simp [pieces]

end DiagramScene.Text
