import Mathlib
import DiagramScene.Proofs.Svg.Escape
import DiagramScene.Svg.Writer

/-!
# Texts that are written as they are

All values of a drawing are escaped, but only colors, URLs and character data may hold characters
that `escape` changes.  The other values are made of numbers and of words of the writer (`isOwn`),
and a writer may put them into a tag as they are: `Node.sparingChars` is the text of a node from a
writer that does so.
-/

namespace DiagramScene.Svg

/-- None of the characters is escaped. -/
def isPlain (cs : List Char) : Bool := cs.all fun c => escapedChar c == [c]

/-- A character of the texts that the writer makes up. -/
def isOwnChar (c : Char) : Bool := c.isAlphanum || " ,.-()".toList.contains c

/-- A text is made of the characters of the writer. -/
def isOwn (cs : List Char) : Bool := cs.all isOwnChar

/-- The attributes whose values may be texts of a scene. -/
def freeKeys : List String := ["fill", "stroke", "xlink:href"]

/-- The text of attributes of which only the free ones are escaped. -/
def sparingAttributeChars (attributes : List Attribute) : List Char :=
  attributes.flatMap fun a =>
    let value := if a.1 ∈ freeKeys then escape a.2.toList else a.2.toList
    ' ' :: a.1.toList ++ '=' :: '"' :: value ++ ['"']

mutual

/-- The text of a node if only free attributes and character data are escaped. -/
def Node.sparingChars : Node → List Char
  | .leaf name attributes => '<' :: name.toList ++ sparingAttributeChars attributes ++ ['/', '>']
  | .branch name attributes children =>
    '<' :: name.toList ++ sparingAttributeChars attributes ++ '>' ::
      sparingCharsOfList children ++ closingChars name
  | .text content => escape content.toList

/-- The text of nodes, one behind the other, if only free attributes and character data are
escaped. -/
def sparingCharsOfList : List Node → List Char
  | [] => []
  | n :: ns => Node.sparingChars n ++ sparingCharsOfList ns

end

/-- Escaping leaves a plain text as it is. -/
theorem escape_of_isPlain {cs : List Char} (h : isPlain cs = true) : escape cs = cs := by
  induction cs with
  | nil => exact escape_nil
  | cons c cs ih =>
    rw [isPlain, List.all_cons, Bool.and_eq_true, beq_iff_eq] at h
    rw [escape_cons, h.1, ih h.2, List.singleton_append]

/-- No character of the writer is escaped. -/
theorem escapedChar_of_isOwnChar {c : Char} (h : isOwnChar c = true) : escapedChar c = [c] := by
  unfold escapedChar
  split
  · exact absurd h (by decide)
  · exact absurd h (by decide)
  · exact absurd h (by decide)
  · exact absurd h (by decide)
  · exact absurd h (by decide)
  · rfl

/-- What the writer makes up is plain. -/
theorem isPlain_of_isOwn {cs : List Char} (h : isOwn cs = true) : isPlain cs = true := by
  refine List.all_eq_true.mpr fun c hc => ?_
  exact beq_iff_eq.mpr (escapedChar_of_isOwnChar (List.all_eq_true.mp h c hc))

/-! ### Texts of the writer -/

@[simp] theorem isOwn_nil : isOwn [] = true := rfl

@[simp] theorem isOwn_cons (c : Char) (cs : List Char) :
    isOwn (c :: cs) = (isOwnChar c && isOwn cs) := rfl

@[simp] theorem isOwn_append (as bs : List Char) :
    isOwn (as ++ bs) = (isOwn as && isOwn bs) :=
  List.all_append

/-- Texts of the writer with such a text between them. -/
theorem isOwn_intercalate {sep : String} {parts : List String}
    (hsep : isOwn sep.toList = true) (hparts : ∀ p ∈ parts, isOwn p.toList = true) :
    isOwn (sep.intercalate parts).toList = true := by
  rw [String.toList_intercalate]
  induction parts with
  | nil => rfl
  | cons p parts ih =>
    rw [List.forall_mem_cons] at hparts
    cases parts with
    | nil => simpa using hparts.1
    | cons q parts =>
      have htail := ih hparts.2
      rw [List.map_cons] at htail
      rw [List.map_cons, List.map_cons, List.intercalate_cons_cons, isOwn_append, isOwn_append,
        hparts.1, hsep, htail]
      rfl

/-! ### Numbers -/

/-- The writer makes up decimal digits. -/
theorem isOwn_toDigits (n : Nat) : isOwn (Nat.toDigits 10 n) = true := by
  refine List.all_eq_true.mpr fun c hc => ?_
  have hdigit : c.isDigit = true := Nat.isDigit_of_mem_toDigits (by decide) (by decide) hc
  rw [isOwnChar, Char.isAlphanum, hdigit, Bool.or_true, Bool.true_or]

/-- The writer makes up digits by place value. -/
theorem isOwn_positional {digits : List Char} (h : isOwn digits = true) (exponent : Int) :
    isOwn (Number.positional false digits exponent) = true := by
  have hzeros (n : Nat) : isOwn (List.replicate n '0') = true := by
    refine List.all_eq_true.mpr fun c hc => ?_
    rw [List.eq_of_mem_replicate hc]
    rfl
  have hsplit (n : Nat) : isOwn (digits.take n) = true ∧ isOwn (digits.drop n) = true := by
    rwa [← Bool.and_eq_true, ← isOwn_append, List.take_append_drop]
  unfold Number.positional
  split
  · simp [h, hzeros]
  · dsimp only
    split
    · have hhead := (hsplit (digits.length - (-exponent).toNat)).1
      have htail := (hsplit (digits.length - (-exponent).toNat)).2
      rw [isOwn_append, isOwn_cons, hhead, htail]
      rfl
    · rw [isOwn_append, isOwn_cons, isOwn_cons, hzeros, h]
      rfl

/-- The writer makes up numbers, whether they are finite or not. -/
theorem isOwn_plainText (x : Float) : isOwn (Number.plainText x).toList = true := by
  rw [Number.plainText, String.toList_ofList, Number.Format.chars]
  cases Number.Dyadic.ofFloat? x with
  | none =>
    dsimp only
    split
    · rfl
    · split <;> rfl
  | some d =>
    have hrender (d : Number.Decimal) : isOwn (Number.plain.render d) = true :=
      isOwn_positional (isOwn_toDigits _) _
    dsimp only
    split
    · rw [isOwn_cons, hrender]
      rfl
    · exact hrender _

/-- The writer makes up the numbers of a document. -/
theorem isOwn_numberText (x : Float) : isOwn (numberText x).toList = true := by
  unfold numberText
  split
  · rfl
  · exact isOwn_plainText _

/-! ### Coordinates, fonts and ids -/

/-- The writer makes up two coordinates. -/
theorem isOwn_pointText (p : Point Float) : isOwn (pointText p).toList = true := by
  simp only [pointText, String.toList_append, isOwn_append, isOwn_numberText]
  rfl

/-- The writer makes up the points of a polygon. -/
theorem isOwn_pointsText (points : List (Point Float)) :
    isOwn (pointsText points).toList = true := by
  refine isOwn_intercalate rfl fun p hp => ?_
  obtain ⟨point, _, rfl⟩ := List.mem_map.mp hp
  exact isOwn_pointText point

/-- The writer makes up the data of a path. -/
theorem isOwn_pathText (steps : List (PathStep Float)) :
    isOwn (pathText steps).toList = true := by
  refine isOwn_intercalate rfl fun p hp => ?_
  obtain ⟨step, _, rfl⟩ := List.mem_map.mp hp
  cases step with
  | move _ | line _ | curve _ _ _ =>
    simp only [stepText, String.toList_append, isOwn_append, isOwn_pointText]
    rfl

/-- The writer makes up the fonts of a family. -/
theorem isOwn_fontFamily (id : UInt32) : isOwn (fontFamily id).toList = true := by
  unfold fontFamily
  split <;> rfl

/-- The writer makes up the id of a pattern. -/
theorem isOwn_patternId (n : Nat) : isOwn (patternId n).toList = true := by
  have hnumber : isOwn n.repr.toList = true := by
    rw [Nat.toList_repr]
    exact isOwn_toDigits n
  simp only [patternId, toString, String.toList_append, isOwn_append, hnumber]
  rfl

/-- The writer makes up the anchor of a text. -/
theorem isOwn_textAnchor (e : Element Float) (t : TextContent Float) :
    isOwn (textAnchor e t).1.toList = true := by
  unfold textAnchor
  split <;>
    · dsimp only
      rfl

/-! ### Transformations and dashes -/

/-- The writer makes up the text of a rotation. -/
theorem isOwn_rotation (angle x y : Float) :
    isOwn s!"rotate({numberText angle} {numberText x} {numberText y})".toList = true := by
  simp only [toString, String.toList_append, isOwn_append, isOwn_numberText]
  rfl

/-- The writer makes up the text of a reflection, which moves there and back. -/
theorem isOwn_reflection (x y sx sy x' y' : Float) :
    let there := numberText x ++ " " ++ numberText y
    let flipped := numberText sx ++ " " ++ numberText sy
    let back := numberText x' ++ " " ++ numberText y'
    isOwn s!"translate({there}) scale({flipped}) translate({back})".toList = true := by
  simp only [toString, String.toList_append, isOwn_append, isOwn_numberText]
  rfl

/-- The writer makes up the lengths of dashes and gaps. -/
theorem isOwn_dashes (dash gap : Float) :
    isOwn (numberText dash ++ "," ++ numberText gap).toList = true := by
  simp only [String.toList_append, isOwn_append, isOwn_numberText]
  rfl

end DiagramScene.Svg
