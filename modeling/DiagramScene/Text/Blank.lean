/-!
# Blank characters

`isBlank` is the Unicode property `White_Space`.  Trimming removes the longest run of blank
characters at an end of a text; what is left begins and ends with a character that is not blank,
or is empty.
-/

namespace DiagramScene.Text

/-- The characters with the property `White_Space`. -/
def isBlank (c : Char) : Bool :=
  let n := c.toNat
  (9 ≤ n && n ≤ 13) || n = 0x20 || n = 0x85 || n = 0xA0 || n = 0x1680 ||
    (0x2000 ≤ n && n ≤ 0x200A) || n = 0x2028 || n = 0x2029 || n = 0x202F || n = 0x205F || n = 0x3000

/-- The text without the blank characters at its start. -/
def dropBlankStart (cs : List Char) : List Char :=
  cs.dropWhile isBlank

/-- The text without the blank characters at its end. -/
def dropBlankEnd (cs : List Char) : List Char :=
  (cs.reverse.dropWhile isBlank).reverse

/-- The text without the blank characters at either end. -/
def trimChars (cs : List Char) : List Char :=
  dropBlankEnd (dropBlankStart cs)

/-- The string without the blank characters at either end. -/
def trimmed (s : String) : String :=
  String.ofList (trimChars s.toList)

/-- A string without any character that is not blank. -/
def isBlankText (s : String) : Bool :=
  s.toList.all isBlank

/-- The pieces of a text between its runs of blank characters, none of them empty. -/
def words (cs : List Char) : List (List Char) :=
  go [] cs
where
  /-- Splits the rest of a text after the characters `word` of an open word, last one first. -/
  go (word : List Char) : List Char → List (List Char)
    | [] => close word []
    | c :: cs => if isBlank c then close word (go [] cs) else go (c :: word) cs
  /-- Puts the open word, if there is one, before the words that follow it. -/
  close (word : List Char) (rest : List (List Char)) : List (List Char) :=
    if word.isEmpty then rest else word.reverse :: rest

theorem dropBlankStart_nil : dropBlankStart [] = [] := rfl

theorem dropBlankStart_cons_of_blank {c : Char} (h : isBlank c = true) (cs : List Char) :
    dropBlankStart (c :: cs) = dropBlankStart cs := by
  simp [dropBlankStart, h]

theorem dropBlankStart_cons_of_not_blank {c : Char} (h : isBlank c = false) (cs : List Char) :
    dropBlankStart (c :: cs) = c :: cs := by
  simp [dropBlankStart, h]

/-- Every ASCII blank of the standard library is blank. -/
theorem isBlank_of_isWhitespace {c : Char} (h : c.isWhitespace = true) : isBlank c = true := by
  simp only [Char.isWhitespace, Bool.or_eq_true, decide_eq_true_eq] at h
  rcases h with ((rfl | rfl) | rfl) | rfl <;> decide

end DiagramScene.Text
