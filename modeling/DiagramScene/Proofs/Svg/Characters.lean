import Mathlib
import DiagramScene.Proofs.Svg.References
import DiagramScene.Proofs.Svg.Spans

/-!
# The characters of a drawing

XML does not allow all characters in a document: most control characters and two others are out of
place even if they are escaped (`isXmlChar`).  The writer escapes the characters that have a meaning
in markup and copies all others, so that a text with a forbidden character gets into the drawing as
it is.

`shownTexts` lists the texts of an element that its drawing shows: colors only where something is
painted in them, lines of texts, names of frames and the URLs of images.  The main statement is
`isXmlChar_text_document_iff`: all characters of a drawing are allowed if and only if all characters
of these texts are.
-/

namespace DiagramScene.Svg

/-- The character may stand in an XML document. -/
def isXmlChar (c : Char) : Bool :=
  c == '\t' || c == '\n' || c == '\r' ||
    (decide (0x20 ≤ c.toNat) && c.toNat != 0xFFFE && c.toNat != 0xFFFF)

/-- All of the characters may stand in an XML document. -/
def isXml (cs : List Char) : Bool := cs.all isXmlChar

/-- All characters of the texts may stand in an XML document. -/
def areXml (texts : List String) : Bool := texts.all fun t => isXml t.toList

/-! ### Texts -/

@[simp] theorem isXml_nil : isXml [] = true := rfl

@[simp] theorem isXml_cons (c : Char) (cs : List Char) :
    isXml (c :: cs) = (isXmlChar c && isXml cs) := rfl

@[simp] theorem isXml_append (as bs : List Char) : isXml (as ++ bs) = (isXml as && isXml bs) :=
  List.all_append

@[simp] theorem areXml_nil : areXml [] = true := rfl

@[simp] theorem areXml_cons (t : String) (ts : List String) :
    areXml (t :: ts) = (isXml t.toList && areXml ts) := rfl

@[simp] theorem areXml_append (ss ts : List String) :
    areXml (ss ++ ts) = (areXml ss && areXml ts) :=
  List.all_append

theorem areXml_flatMap {β : Type} (f : β → List String) (l : List β) :
    areXml (l.flatMap f) = l.all fun x => areXml (f x) :=
  List.all_flatMap

theorem areXml_eq_true_iff {texts : List String} :
    areXml texts = true ↔ ∀ t ∈ texts, isXml t.toList = true :=
  List.all_eq_true

/-- A character of the writer is allowed. -/
theorem isXmlChar_of_isOwnChar {c : Char} (h : isOwnChar c = true) : isXmlChar c = true := by
  have hbounds : 0x20 ≤ c.toNat ∧ c.toNat < 0xFFFE := by
    rcases Bool.or_eq_true_iff.mp h with hletter | hsign
    · simp only [Char.isAlphanum, Char.isAlpha, Char.isUpper, Char.isLower, Char.isDigit,
        Bool.or_eq_true, Bool.and_eq_true, decide_eq_true_eq, UInt32.le_iff_toNat_le,
        ge_iff_le] at hletter
      change ((65 ≤ c.toNat ∧ c.toNat ≤ 90) ∨ (97 ≤ c.toNat ∧ c.toNat ≤ 122)) ∨
        (48 ≤ c.toNat ∧ c.toNat ≤ 57) at hletter
      omega
    · have hall : " ,.-()".toList.all (fun d => decide (0x20 ≤ d.toNat ∧ d.toNat < 0xFFFE)) =
          true := rfl
      exact decide_eq_true_iff.mp (List.all_eq_true.mp hall c (List.contains_iff_mem.mp hsign))
  have hne₁ : c.toNat ≠ 0xFFFE := by omega
  have hne₂ : c.toNat ≠ 0xFFFF := by omega
  simp [isXmlChar, hbounds.1, hne₁, hne₂]

/-- What the writer makes up is allowed. -/
theorem isXml_of_isOwn {cs : List Char} (h : isOwn cs = true) : isXml cs = true :=
  List.all_eq_true.mpr fun c hc => isXmlChar_of_isOwnChar (List.all_eq_true.mp h c hc)

@[simp] theorem isXml_numberText (x : Float) : isXml (numberText x).toList = true :=
  isXml_of_isOwn (isOwn_numberText x)

/-- An entity is allowed, and any other character is written as it is. -/
theorem isXml_escapedChar (c : Char) : isXml (escapedChar c) = isXmlChar c := by
  by_cases h : c ∈ markupSigns
  · have hall : markupSigns.all (fun d => isXml (escapedChar d) == isXmlChar d) = true := rfl
    exact beq_iff_eq.mp (List.all_eq_true.mp hall c h)
  · rw [escapedChar_of_notMem h, isXml_cons, isXml_nil, Bool.and_true]

/-- Escaping does not change whether a text is allowed. -/
theorem isXml_escape (cs : List Char) : isXml (escape cs) = isXml cs := by
  induction cs with
  | nil => rw [escape_nil]
  | cons c cs ih => rw [escape_cons, isXml_append, isXml_escapedChar, ih, isXml_cons]

/-- A text is allowed without the carriage returns at the ends of its lines if it is with them. -/
theorem isXml_withoutReturns (cs : List Char) :
    isXml (Text.withoutReturns cs) = isXml cs := by
  induction cs with
  | nil => rfl
  | cons c cs ih =>
    rw [Text.withoutReturns]
    split
    · rename_i hreturn
      rw [ih, isXml_cons, hreturn.1]
      rfl
    · rw [isXml_cons, isXml_cons, ih]

/-- Newlines between lines are allowed. -/
theorem isXml_intercalate_newline (ls : List (List Char)) :
    isXml (['\n'].intercalate ls) = ls.all isXml := by
  induction ls with
  | nil => rfl
  | cons l ls ih =>
    cases ls with
    | nil => simp
    | cons l' ls =>
      have hnewline : isXml ['\n'] = true := rfl
      rw [List.intercalate_cons_cons, isXml_append, isXml_append, hnewline, Bool.and_true, ih]
      rfl

/-- The lines of a text are allowed if the text is. -/
theorem all_isXml_lines (t : TextContent Float) : t.lines.all isXml = isXml t.text.toList := by
  rw [← isXml_intercalate_newline, TextContent.lines, Text.intercalate_textLines,
    isXml_withoutReturns]

/-! ### Trees -/

/-- The values of attributes. -/
def valuesOf (attributes : List Attribute) : List String := attributes.map (·.2)

mutual

/-- The values of all attributes in a node, and its character data. -/
def Node.values : Node → List String
  | .leaf _ attributes => valuesOf attributes
  | .branch _ attributes children => valuesOf attributes ++ valuesOfList children
  | .text content => [content]

/-- The values and the character data of nodes, one behind the other. -/
def valuesOfList : List Node → List String
  | [] => []
  | n :: ns => Node.values n ++ valuesOfList ns

end

@[simp] theorem valuesOfList_nil : valuesOfList [] = [] := by simp [valuesOfList]

@[simp] theorem valuesOfList_cons (n : Node) (ns : List Node) :
    valuesOfList (n :: ns) = n.values ++ valuesOfList ns := by simp [valuesOfList]

@[simp] theorem valuesOfList_append (ns ms : List Node) :
    valuesOfList (ns ++ ms) = valuesOfList ns ++ valuesOfList ms := by
  induction ns with
  | nil => simp
  | cons n ns ih => simp [ih]

theorem valuesOfList_eq_flatMap (ns : List Node) : valuesOfList ns = ns.flatMap Node.values := by
  induction ns with
  | nil => simp
  | cons n ns ih => simp [ih]

@[simp] theorem valuesOf_nil : valuesOf [] = [] := rfl

@[simp] theorem valuesOf_cons (key value : String) (attributes : List Attribute) :
    valuesOf ((key, value) :: attributes) = value :: valuesOf attributes := rfl

@[simp] theorem valuesOf_append (as bs : List Attribute) :
    valuesOf (as ++ bs) = valuesOf as ++ valuesOf bs :=
  List.map_append

/-- The words of the vocabulary are allowed. -/
theorem isXml_vocabulary : ∀ tag ∈ vocabulary,
    isXml tag.1.toList = true ∧ ∀ key ∈ tag.2, isXml key.toList = true := by
  have hall : vocabulary.all (fun tag => isXml tag.1.toList &&
      tag.2.all fun key => isXml key.toList) = true := rfl
  intro tag htag
  simpa using List.all_eq_true.mp hall tag htag

/-- Attributes are allowed if their values are. -/
theorem isXml_attributeChars {attributes : List Attribute}
    (h : ∀ key ∈ keysOf attributes, isXml key.toList = true) :
    isXml (attributeChars attributes) = areXml (valuesOf attributes) := by
  induction attributes with
  | nil => rfl
  | cons a attributes ih =>
    obtain ⟨key, value⟩ := a
    rw [keysOf, List.map_cons, List.forall_mem_cons] at h
    have hsplit : attributeChars ((key, value) :: attributes) =
        ' ' :: key.toList ++ '=' :: '"' :: escape value.toList ++ ['"'] ++
          attributeChars attributes := by
      simp [attributeChars]
    rw [hsplit, isXml_append, ih h.2]
    simp [h.1, isXml_escape, isXmlChar]

/-- A tag of the vocabulary is allowed if the values of its attributes are. -/
theorem ConformingTag.isXml_eq {name : String} {attributes : List Attribute}
    (h : ConformingTag name attributes) :
    isXml name.toList = true ∧
      isXml (openingChars name attributes) = areXml (valuesOf attributes) := by
  obtain ⟨keys, hkeys, horder⟩ := h
  obtain ⟨hname, hwords⟩ := isXml_vocabulary (name, keys) (Keyed.mem_of_get? hkeys)
  have hattributes := isXml_attributeChars fun key hkey => hwords key (horder.sublist.subset hkey)
  refine ⟨hname, ?_⟩
  rw [openingChars, isXml_append, isXml_cons, hname, hattributes]
  rfl

/-- Nodes are allowed if each of them is. -/
theorem isXml_charsOfList {ns : List Node} (h : ∀ n ∈ ns, isXml n.chars = areXml n.values) :
    isXml (charsOfList ns) = areXml (valuesOfList ns) := by
  induction ns with
  | nil => simp [charsOfList_nil]
  | cons n ns ih =>
    rw [List.forall_mem_cons] at h
    rw [charsOfList_cons, isXml_append, h.1, ih h.2, valuesOfList_cons, areXml_append]

/-- A node of the vocabulary is allowed if the values and the character data in it are. -/
theorem Node.Conforms.isXml_chars {n : Node} (h : n.Conforms) :
    isXml n.chars = areXml n.values := by
  induction h with
  | leaf htag =>
    rw [Node.chars, Node.values, isXml_append, htag.isXml_eq.2]
    exact Bool.and_true _
  | branch htag _ ih =>
    obtain ⟨hname, hopening⟩ := htag.isXml_eq
    rw [Node.chars, Node.values, areXml_append, closingChars]
    simp [hname, hopening, isXml_charsOfList ih, isXmlChar]
  | text content =>
    rw [Node.chars, Node.values, isXml_escape, areXml_cons, areXml_nil, Bool.and_true]

/-- The values that the writer makes up are allowed. -/
theorem areXml_of_own {attributes : List Attribute} (h : ∀ a ∈ attributes, IsOwnAttribute a) :
    areXml (valuesOf attributes) = true := by
  rw [areXml_eq_true_iff]
  intro value hvalue
  obtain ⟨a, ha, rfl⟩ := List.mem_map.mp hvalue
  exact isXml_of_isOwn (h a ha).2

/-! ### Texts that a drawing shows -/

/-- The color of the stroke, if there is a stroke. -/
def strokeTexts (e : Element Float) : List String :=
  if hasStroke e then [e.strokeColor] else []

/-- The color of the inside, if it is filled with a color. -/
def fillTexts (e : Element Float) : List String :=
  match fillOf e with
  | .solid => [e.backgroundColor]
  | .none | .hatched | .crossHatched => []

/-- The color of the lines in a pattern, if there is a pattern. -/
def patternTexts (e : Element Float) : List String :=
  match fillOf e with
  | .hatched | .crossHatched => [e.backgroundColor]
  | .none | .solid => []

/-- An arrowhead has an inside that is filled with the background color. -/
def Arrowhead.isHollow : Arrowhead → Bool
  | .lines _ => false
  | .polygon _ isOpen | .circle _ _ isOpen => isOpen

/-- The color of the inside of an arrowhead, if it is filled with the background color. -/
def insideTexts (e : Element Float) (head : Arrowhead) : List String :=
  if head.isHollow && isVisibleColor e.backgroundColor then [e.backgroundColor] else []

/-- The texts of the arrowhead with a name, beside the color of the stroke. -/
def headTexts (e : Element Float) (name : Option String) (tail tip : Point Float) : List String :=
  match name.bind Arrowhead.style? with
  | none => []
  | some style => insideTexts e (Arrowhead.place style tail tip e.strokeWidth)

/-- The texts of a line or an arrow. -/
def linearTexts (e : Element Float) (path : LinearPath Float) (mayFill : Bool) : List String :=
  let points := finitePoints e path.points
  match points, points.reverse with
  | p :: q :: _, r :: s :: _ =>
    strokeTexts e ++ patternTexts e ++ (if mayFill && isClosed points then fillTexts e else []) ++
      headTexts e path.startArrowhead q p ++ headTexts e path.endArrowhead s r
  | _, _ => []

/-- The texts of an element that its drawing shows. -/
def shownTexts (files : Members) (e : Element Float) : List String :=
  match e.kind with
  | .rectangle | .diamond | .ellipse => strokeTexts e ++ patternTexts e ++ fillTexts e
  | .embeddable | .iframe => strokeTexts e ++ patternTexts e
  | .line path => linearTexts e path true
  | .arrow path => linearTexts e path false
  | .freedraw stroke =>
    if (finitePoints e stroke.points).isEmpty then [] else strokeTexts e ++ patternTexts e
  | .text t => if t.text.isEmpty then [] else [e.strokeColor, t.text]
  | .image picture => (picture.fileId.bind (dataUrl? files)).toList
  | .frame title | .magicFrame title => strokeTexts e ++ patternTexts e ++ title.name.toList
  | .other _ => []

/-- The texts of a scene that its drawing shows. -/
def sceneTexts (standalone : Bool) (scene : Scene) : List String :=
  (if standalone && scene.appState.exportBackground then [scene.appState.viewBackgroundColor]
    else []) ++ (visible scene.elements).flatMap (shownTexts scene.files)

/-! ### Paint -/

/-- The color of the stroke, or the word of the writer for none. -/
theorem isXml_strokePaint (e : Element Float) :
    isXml (strokePaint e).toList = areXml (strokeTexts e) := by
  unfold strokePaint strokeTexts
  split
  · simp
  · rfl

/-- A reference to a pattern is allowed. -/
theorem isXml_patternUrl (n : Nat) : isXml (patternUrl n).toList = true := by
  simp only [patternUrl, String.toList_append, isXml_append, isXml_of_isOwn (isOwn_patternId n)]
  rfl

/-- The color of the inside, or a value of the writer. -/
theorem isXml_fillPaint (e : Element Float) (before : Nat) :
    isXml (fillPaint e before).toList = areXml (fillTexts e) := by
  unfold fillPaint fillTexts
  cases fillOf e with
  | none =>
    dsimp only
    rfl
  | solid => simp
  | hatched | crossHatched => exact isXml_patternUrl _

/-- The values of a pattern are those of the writer, but for the color. -/
theorem areXml_patternsOf (e : Element Float) (before : Nat) :
    areXml (valuesOfList (patternsOf e before)) = areXml (patternTexts e) := by
  have hpattern (crossed : Bool) (n : Nat) :
      areXml (patternNode e crossed n).values = isXml e.backgroundColor.toList := by
    cases crossed <;>
      simp [patternNode, Node.values, isXml_of_isOwn (isOwn_patternId n), isXmlChar]
  unfold patternsOf patternTexts
  cases fillOf e with
  | none | solid => simp
  | hatched | crossHatched => simp [hpattern]

/-- The values of an outline are those of the writer, but for its paint. -/
theorem areXml_outlineNode (outline : Outline Float) (fill : String) (e : Element Float) :
    areXml (outlineNode outline fill e).values =
      (isXml fill.toList && areXml (strokeTexts e)) := by
  have hstroke := areXml_of_own (own_strokeAttributes e)
  cases outline with
  | rect x y width height radius =>
    have hplace := areXml_of_own (own_placeAttributes x y width height)
    simp only [outlineNode, Node.values, valuesOf_append, areXml_append, hplace]
    split <;> simp [isXml_strokePaint, hstroke]
  | polygon points =>
    simp [outlineNode, Node.values, isXml_of_isOwn (isOwn_pointsText points), isXml_strokePaint,
      hstroke]
  | ellipse cx cy rx ry => simp [outlineNode, Node.values, isXml_strokePaint, hstroke]
  | path steps =>
    simp [outlineNode, Node.values, isXml_of_isOwn (isOwn_pathText steps), isXml_strokePaint,
      hstroke]

/-- The values of an element's outline. -/
theorem areXml_outlineNodes {e : Element Float} (h : (outline? e).isSome = true) (fill : String) :
    areXml (valuesOfList (outlineNodes e fill)) =
      (isXml fill.toList && areXml (strokeTexts e)) := by
  obtain ⟨outline, houtline⟩ := Option.isSome_iff_exists.mp h
  rw [outlineNodes, houtline, Option.map_some, Option.toList_some, valuesOfList_cons,
    valuesOfList_nil, List.append_nil, areXml_outlineNode]

/-! ### Fragments -/

/-- The values of an arrowhead are those of the writer, but for its paint. -/
theorem areXml_headNodes {e : Element Float} (h : areXml (strokeTexts e) = true)
    (head : Arrowhead) :
    areXml (valuesOfList (headNodes e head)) = areXml (insideTexts e head) := by
  have hstroke : isXml (strokePaint e).toList = true := (isXml_strokePaint e).trans h
  have hround := areXml_of_own own_roundStroke
  have helement := areXml_of_own (own_elementAttributes e)
  have hfill (isOpen : Bool) : isXml (headFill e isOpen).toList =
      areXml (if isOpen && isVisibleColor e.backgroundColor then [e.backgroundColor] else []) := by
    unfold headFill
    cases isOpen with
    | false => simpa using hstroke
    | true =>
      rw [if_pos rfl, Bool.true_and]
      split
      · simp
      · rfl
  cases head with
  | lines segments =>
    have hpath (steps : List (PathStep Float)) : isXml (pathText steps).toList = true :=
      isXml_of_isOwn (isOwn_pathText steps)
    rw [headNodes, valuesOfList_eq_flatMap, List.flatMap_map, areXml_flatMap]
    refine List.all_eq_true.mpr fun segment _ => ?_
    simp [Node.values, hpath, hstroke, hround, helement, isXmlChar]
  | polygon points isOpen =>
    simp [headNodes, Node.values, isXml_of_isOwn (isOwn_pointsText points), hfill, hstroke, hround,
      helement, insideTexts, Arrowhead.isHollow]
  | circle center radius isOpen =>
    simp [headNodes, Node.values, hfill, hstroke, hround, helement, insideTexts,
      Arrowhead.isHollow]

/-- The values of the arrowhead with a name. -/
theorem areXml_headFragment {e : Element Float} (h : areXml (strokeTexts e) = true)
    (name : Option String) (tail tip : Point Float) :
    areXml (valuesOfList (headFragment e name tail tip).nodes) =
      areXml (headTexts e name tail tip) := by
  unfold headFragment headTexts
  cases name with
  | none => rfl
  | some name =>
    rw [Option.bind_some]
    dsimp only
    cases Arrowhead.style? name with
    | none => rfl
    | some style => exact areXml_headNodes h _

/-- The values and the character data of a fragment. -/
def Fragment.values (f : Fragment) : List String := valuesOfList f.nodes ++ valuesOfList f.patterns

/-- The values of a shape that is filled. -/
theorem areXml_filledFragment {e : Element Float} (h : (outline? e).isSome = true) (before : Nat) :
    areXml (filledFragment e before).values =
      areXml (strokeTexts e ++ patternTexts e ++ fillTexts e) := by
  rw [filledFragment, Fragment.values, areXml_append, areXml_outlineNodes h, isXml_fillPaint,
    areXml_patternsOf, areXml_append, areXml_append]
  ac_rfl

/-- The values of a shape whose inside stays empty. -/
theorem areXml_hollowFragment {e : Element Float} (h : (outline? e).isSome = true) (before : Nat) :
    areXml (hollowFragment e before).values = areXml (strokeTexts e ++ patternTexts e) := by
  rw [hollowFragment, Fragment.values, areXml_append, areXml_outlineNodes h, areXml_patternsOf,
    areXml_append]
  rfl

/-- A line with too few points shows no texts. -/
theorem linearTexts_of_lt {e : Element Float} {path : LinearPath Float}
    (h : (finitePoints e path.points).length < 2) (mayFill : Bool) :
    linearTexts e path mayFill = [] := by
  unfold linearTexts
  dsimp only
  split
  · rename_i hpoints _
    rw [hpoints, List.length_cons, List.length_cons] at h
    exact absurd h (by omega)
  · rfl

/-- The values of a line or an arrow. -/
theorem areXml_linearFragment {e : Element Float} (h : (outline? e).isSome = true)
    (path : LinearPath Float) (mayFill : Bool) (before : Nat) :
    areXml (linearFragment e path mayFill before).values =
      areXml (linearTexts e path mayFill) := by
  rcases lt_or_ge (finitePoints e path.points).length 2 with hfew | henough
  · rw [linearFragment_of_lt hfew, linearTexts_of_lt hfew]
    rfl
  · obtain ⟨p, q, r, s, front, back, hpoints, hreverse⟩ := exists_ends henough
    have hfill : isXml (if mayFill && isClosed (p :: q :: back) then fillPaint e before
        else "none").toList =
          areXml (if mayFill && isClosed (p :: q :: back) then fillTexts e else []) := by
      split
      · exact isXml_fillPaint e before
      · rfl
    rw [hpoints] at hreverse
    unfold linearFragment linearTexts
    simp only [hpoints, hreverse, Fragment.values, valuesOfList_append, areXml_append,
      areXml_outlineNodes h, hfill, areXml_patternsOf]
    -- without the color of the stroke an arrowhead is not allowed either
    cases hstroke : areXml (strokeTexts e) with
    | false => simp only [Bool.false_and, Bool.and_false]
    | true =>
      rw [areXml_headFragment hstroke, areXml_headFragment hstroke]
      ac_rfl

/-- The values of a text are those of the writer, but for the color and the lines. -/
theorem areXml_textFragment (e : Element Float) (t : TextContent Float) :
    areXml (textFragment e t).values =
      areXml (if t.text.isEmpty then [] else [e.strokeColor, t.text]) := by
  unfold textFragment
  split
  · rfl
  · have helement := areXml_of_own (own_elementAttributes e)
    have hspan (line : List Char × Nat) : areXml (spanNode e t line).values = isXml line.1 := by
      simp [spanNode, spanOf, Node.values]
    have hspans : areXml (valuesOfList (t.lines.zipIdx.map (spanNode e t))) =
        isXml t.text.toList := by
      rw [valuesOfList_eq_flatMap, List.flatMap_map, areXml_flatMap]
      simp only [hspan]
      calc t.lines.zipIdx.all (fun line => isXml line.1) =
            (t.lines.zipIdx.map Prod.fst).all isXml := by
            rw [List.all_map]
            rfl
        _ = t.lines.all isXml := by rw [List.zipIdx_map_fst]
        _ = isXml t.text.toList := all_isXml_lines t
    change areXml (valuesOfList [.branch "text" ([("font-family", fontFamily t.fontFamily),
      ("font-size", numberText (drawnFontSize t)), ("fill", e.strokeColor),
      ("text-anchor", (textAnchor e t).1), ("xml:space", "preserve")] ++ elementAttributes e)
      (t.lines.zipIdx.map (spanNode e t))] ++ []) = _
    simp [Node.values, hspans, helement, isXml_of_isOwn (isOwn_fontFamily _),
      isXml_of_isOwn (isOwn_textAnchor e t), isXmlChar]

/-- The values of an image are those of the writer, but for the URL. -/
theorem areXml_imageFragment (files : Members) (e : Element Float) (picture : Picture Float) :
    areXml (imageFragment files e picture).values =
      areXml (picture.fileId.bind (dataUrl? files)).toList := by
  unfold imageFragment
  cases picture.fileId with
  | none => rfl
  | some fileId =>
    rw [Option.bind_some]
    dsimp only
    cases dataUrl? files fileId with
    | none => rfl
    | some url =>
      have helement := areXml_of_own (own_elementAttributes e)
      have hflip := areXml_of_own (own_flipAttributes e picture.scale)
      have hplace := areXml_of_own (own_placeAttributes e.x e.y (Scalar.nonneg e.width)
        (Scalar.nonneg e.height))
      simp [Fragment.values, Fragment.ofNodes, Node.values, helement, hflip, hplace, isXmlChar]

/-- The values of a frame are those of the outline, and its title. -/
theorem areXml_frameFragment {e : Element Float} (h : (outline? e).isSome = true)
    (title : FrameTitle) {defaultName : String} (hname : isXml defaultName.toList = true)
    (before : Nat) :
    areXml (frameFragment e title defaultName before).values =
      areXml (strokeTexts e ++ patternTexts e ++ title.name.toList) := by
  have hframe := areXml_hollowFragment h before
  have htitle : isXml (title.name.getD defaultName).toList = areXml title.name.toList := by
    cases title.name with
    | none => exact hname
    | some name => simp
  have hcolor : isXml titleColor.toList = true := rfl
  rw [Fragment.values, areXml_append, areXml_append] at hframe
  simp only [frameFragment, Fragment.values, valuesOfList_append, areXml_append, valuesOfList_cons,
    valuesOfList_nil, Node.values, valuesOf_cons, valuesOf_nil, areXml_cons, areXml_nil,
    isXml_numberText, isXml_of_isOwn (isOwn_fontFamily _), hcolor, htitle, Bool.true_and,
    Bool.and_true]
  rw [← hframe]
  ac_rfl

/-- The values of a fragment are those of the writer, but for the texts that are shown. -/
theorem areXml_fragment (files : Members) (before : Nat) (e : Element Float) :
    areXml (fragment files before e).values = areXml (shownTexts files e) := by
  unfold fragment shownTexts
  cases kind : e.kind with
  | rectangle | diamond | ellipse =>
    apply areXml_filledFragment
    rw [outline?, kind]
    rfl
  | embeddable | iframe =>
    apply areXml_hollowFragment
    rw [outline?, kind]
    rfl
  | line path =>
    apply areXml_linearFragment
    rw [outline?, kind]
    rfl
  | arrow path =>
    apply areXml_linearFragment
    rw [outline?, kind]
    rfl
  | freedraw stroke =>
    dsimp only [strokeFragment]
    split
    · rfl
    · apply areXml_hollowFragment
      rw [outline?, kind]
      rfl
  | text t => exact areXml_textFragment e t
  | image picture => exact areXml_imageFragment files e picture
  | frame title =>
    apply areXml_frameFragment _ title rfl
    rw [outline?, kind]
    rfl
  | magicFrame title =>
    apply areXml_frameFragment _ title rfl
    rw [outline?, kind]
    rfl
  | other name => rfl

/-! ### Documents -/

/-- The values of the fragments of elements. -/
theorem areXml_fragments (files : Members) (before : Nat) (es : List (Element Float)) :
    areXml (valuesOfList (nodesFrom files before es) ++
        valuesOfList (patternsFrom files before es)) =
      areXml (es.flatMap (shownTexts files)) := by
  induction es generalizing before with
  | nil => rfl
  | cons e es ih =>
    have hfirst := areXml_fragment files before e
    have hrest := ih (before + (fragment files before e).patterns.length)
    rw [Fragment.values, areXml_append] at hfirst
    rw [areXml_append] at hrest
    have hnodes : nodesFrom files before (e :: es) = (fragment files before e).nodes ++
        nodesFrom files (before + (fragment files before e).patterns.length) es := List.flatMap_cons
    rw [hnodes, patternsFrom_cons, valuesOfList_append, valuesOfList_append, List.flatMap_cons,
      areXml_append, areXml_append, areXml_append, areXml_append, ← hfirst, ← hrest]
    ac_rfl

/-- The values in definitions are those of the patterns. -/
theorem areXml_definitions (patterns : List Node) :
    areXml (valuesOfList (definitions patterns)) = areXml (valuesOfList patterns) := by
  cases patterns with
  | nil => rfl
  | cons n ns => simp [definitions, Node.values]

/-- The area of a drawing is written with numbers. -/
theorem isXml_viewBox (x y width height : Float) :
    isXml (" ".intercalate [numberText x, numberText y, numberText width,
      numberText height]).toList = true := by
  refine isXml_of_isOwn (isOwn_intercalate rfl fun p hp => ?_)
  fin_cases hp <;> exact isOwn_numberText _

/-- The values of what is painted behind a drawing are those of the writer, but for the color. -/
theorem areXml_background (c : Prop) [Decidable c] (x y width height : Float) (color : String) :
    areXml (valuesOfList (if c then [Node.leaf "rect" (placeAttributes x y width height ++
      [("fill", color)])] else [])) = areXml (if c then [color] else []) := by
  have hplace := areXml_of_own (own_placeAttributes x y width height)
  split
  · simp [Node.values, hplace]
  · rfl

/-- The values of a drawing are those of the writer, but for the texts that are shown. -/
theorem areXml_document (measurer : Measurer Float) (standalone : Bool) (scene : Scene) :
    areXml (document measurer standalone scene).root.values =
      areXml (sceneTexts standalone scene) := by
  have hfragments := areXml_fragments scene.files 0 (visible scene.elements)
  have hdefinitions := areXml_definitions (patternsFrom scene.files 0 (visible scene.elements))
  have hspace : isXml "http://www.w3.org/2000/svg".toList = true := rfl
  have hlinks : isXml "http://www.w3.org/1999/xlink".toList = true := rfl
  have hversion : isXml "1.1".toList = true := rfl
  have hdark (c : Prop) [Decidable c] :
      areXml (valuesOf (if c then [("style", darkFilter)] else [])) = true := by
    split <;> rfl
  rw [areXml_append] at hfragments
  unfold nodesFrom patternsFrom at hfragments
  unfold definitions patternsFrom at hdefinitions
  simp only [document, sceneTexts, Node.values, valuesOf_append, valuesOf_cons, valuesOf_nil,
    valuesOfList_append, areXml_append, areXml_cons, areXml_nil, hspace, hlinks, hversion,
    isXml_numberText, isXml_viewBox, hdark, areXml_background, hdefinitions, ← hfragments,
    Bool.true_and, Bool.and_true]
  ac_rfl

/-- The text of a drawing is allowed if the texts are that it shows. -/
theorem isXml_text_document (measurer : Measurer Float) (standalone : Bool) (scene : Scene) :
    isXml (document measurer standalone scene).text.toList =
      areXml (sceneTexts standalone scene) := by
  rw [Document.text, Node.render, String.toList_ofList,
    (conforms_document measurer standalone scene).isXml_chars, areXml_document]

/-- The characters of a drawing may all stand in an XML document if and only if those of the texts
may that it shows: colors where they are painted, lines of texts, names of frames, URLs of images,
and the color behind the drawing. -/
theorem isXmlChar_text_document_iff (measurer : Measurer Float) (standalone : Bool)
    (scene : Scene) :
    (∀ c ∈ (document measurer standalone scene).text.toList, isXmlChar c = true) ↔
      ∀ text ∈ sceneTexts standalone scene, ∀ c ∈ text.toList, isXmlChar c = true := by
  have hdocument := isXml_text_document measurer standalone scene
  rw [Bool.eq_iff_iff, areXml_eq_true_iff] at hdocument
  simpa only [isXml, List.all_eq_true] using hdocument

/-- A text with a control character in it. -/
def controlText : Json :=
  .obj [("id", .str "a"), ("type", .str "text"), ("text", .str "a\x01b")]

/-- The control character gets into every drawing of the text. -/
theorem not_isXmlChar_controlText : ∃ e, Element.decode controlText = .ok e ∧
    ∀ measurer standalone params, ¬ ∀ c ∈
      (document measurer standalone (Scene.assemble [e] params)).text.toList,
        isXmlChar c = true := by
  have hdecode : (Element.decode controlText).toOption.any (fun e =>
      !e.isDeleted && !areXml (shownTexts [] e)) = true := by
    decide +kernel
  cases helement : Element.decode controlText with
  | error fault =>
    rw [helement] at hdecode
    exact absurd hdecode Bool.false_ne_true
  | ok e =>
    rw [helement] at hdecode
    have hparts : e.isDeleted = false ∧ areXml (shownTexts [] e) = false := by
      simpa [Except.toOption] using hdecode
    refine ⟨e, rfl, fun measurer standalone params hall => ?_⟩
    have hvisible : visible (Scene.assemble [e] params).elements = [e] := by
      simp [visible, Scene.assemble, hparts.1]
    have hdocument := isXml_text_document measurer standalone (Scene.assemble [e] params)
    rw [isXml, List.all_eq_true.mpr hall, sceneTexts, hvisible, List.flatMap_singleton,
      areXml_append] at hdocument
    have hshown : areXml (shownTexts (Scene.assemble [e] params).files e) = false := hparts.2
    rw [hshown, Bool.and_false] at hdocument
    exact Bool.false_ne_true hdocument.symm

end DiagramScene.Svg
