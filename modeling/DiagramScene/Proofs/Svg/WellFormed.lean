import Mathlib
import DiagramScene.Proofs.Svg.Plain
import DiagramScene.Proofs.Svg.Reading

/-!
# Drawings are well-formed markup

The writer builds a tree and puts it into words, and the reading of these words is the tree again.
For this the tags and their attributes must have names that a reader recognizes, and no tag may
have two attributes of one name.  `vocabulary` lists the tags with all attributes that each of them
may have, in their order, and `Node.Conforms` says that a tree keeps to it.  It also says which
values may be texts of a scene: the colors and the URLs of files, while all others are plain.

The main statement is `reads_document`: whatever the texts, colors, names and files of a scene are,
its drawing has one reading, a single element `svg` that contains the nodes of the tree.
-/

namespace DiagramScene.Svg

/-! ### Trees as they are read -/

mutual

/-- What a node says. -/
def Node.items : Node → List Item
  | .leaf name attributes => [.element name attributes []]
  | .branch name attributes children => [.element name attributes (itemsOfList children)]
  | .text content => content.toList.map .char

/-- What nodes say, one behind the other. -/
def itemsOfList : List Node → List Item
  | [] => []
  | n :: ns => Node.items n ++ itemsOfList ns

end

theorem itemsOfList_nil : itemsOfList [] = [] := by simp [itemsOfList]

theorem itemsOfList_cons (n : Node) (ns : List Node) :
    itemsOfList (n :: ns) = n.items ++ itemsOfList ns := by simp [itemsOfList]

/-- The attributes of a stroke and of an element. -/
def strokeKeys : List String :=
  ["stroke-width", "stroke-linecap", "stroke-linejoin", "stroke-dasharray", "opacity", "transform"]

/-- The attributes of what is painted. -/
def paintKeys : List String := "fill" :: "stroke" :: strokeKeys

/-- The tags of drawings, each with all attributes that it may have. -/
def vocabulary : List (String × List String) :=
  [("svg", ["xmlns", "xmlns:xlink", "version", "width", "height", "viewBox", "style"]),
    ("defs", []),
    ("pattern", ["id", "patternUnits", "width", "height", "patternTransform"]),
    ("line", ["x1", "y1", "x2", "y2", "stroke", "stroke-width"]),
    ("rect", ["x", "y", "width", "height", "rx", "ry"] ++ paintKeys),
    ("polygon", "points" :: paintKeys),
    ("ellipse", ["cx", "cy", "rx", "ry"] ++ paintKeys),
    ("path", "d" :: paintKeys),
    ("circle", ["cx", "cy", "r"] ++ paintKeys),
    ("text", ["x", "y", "font-family", "font-size", "fill", "text-anchor", "xml:space", "opacity",
      "transform"]),
    ("tspan", ["x", "y"]),
    ("image", ["x", "y", "width", "height", "preserveAspectRatio", "xlink:href", "transform"]),
    ("g", ["opacity", "transform"])]

/-- The names of attributes, in the order in which they are written. -/
def keysOf (attributes : List Attribute) : List String := attributes.map (·.1)

/-- Attributes in the order of a list of names, of which any may be missing.  Only a free attribute
may have a value that is not plain. -/
inductive InOrder : List Attribute → List String → Prop
  | nil : InOrder [] []
  | missing {attributes : List Attribute} {key : String} {keys : List String} :
      InOrder attributes keys → InOrder attributes (key :: keys)
  | plain {attributes : List Attribute} {key value : String} {keys : List String} :
      isPlain value.toList = true → InOrder attributes keys →
      InOrder ((key, value) :: attributes) (key :: keys)
  | free {attributes : List Attribute} {key value : String} {keys : List String} :
      key ∈ freeKeys → InOrder attributes keys → InOrder ((key, value) :: attributes) (key :: keys)

/-- A tag is in the vocabulary, and so are its attributes. -/
def ConformingTag (name : String) (attributes : List Attribute) : Prop :=
  ∃ keys, vocabulary.lookup name = some keys ∧ InOrder attributes keys

/-- All tags of a node are in the vocabulary. -/
inductive Node.Conforms : Node → Prop
  | leaf {name : String} {attributes : List Attribute} :
      ConformingTag name attributes → Conforms (.leaf name attributes)
  | branch {name : String} {attributes : List Attribute} {children : List Node} :
      ConformingTag name attributes → (∀ n ∈ children, n.Conforms) →
      Conforms (.branch name attributes children)
  | text (content : String) : Conforms (.text content)

/-- Attributes in the order of a list have names of the list, in its order. -/
theorem InOrder.sublist {attributes : List Attribute} {keys : List String}
    (h : InOrder attributes keys) : (keysOf attributes).Sublist keys := by
  induction h with
  | nil => exact .slnil
  | missing _ ih => exact .cons _ ih
  | plain _ _ ih => exact .cons_cons _ ih
  | free _ _ ih => exact .cons_cons _ ih

/-- The names of the vocabulary are names, and it has no attribute twice for a tag. -/
theorem vocabulary_lawful : ∀ tag ∈ vocabulary,
    isNameText tag.1.toList = true ∧ tag.2.Nodup ∧ ∀ key ∈ tag.2, isNameText key.toList = true := by
  have hall : vocabulary.all (fun tag => isNameText tag.1.toList && decide tag.2.Nodup &&
      tag.2.all fun key => isNameText key.toList) = true := rfl
  intro tag htag
  simpa [and_assoc] using List.all_eq_true.mp hall tag htag

/-! ### Reading what has been written -/

/-- A character is read as it has been written. -/
theorem readsChar_escapedChar (c : Char) (rest : List Char) :
    ReadsChar (escapedChar c ++ rest) c rest := by
  unfold escapedChar
  split
  · exact .entity (by decide)
  · exact .entity (by decide)
  · exact .entity (by decide)
  · exact .entity (by decide)
  · exact .entity (by decide)
  · rename_i hamp hlt hgt hquot _
    refine .raw ?_
    simp only [markupChars, List.mem_cons, List.not_mem_nil, or_false]
    rintro (rfl | rfl | rfl | rfl)
    · exact hlt rfl
    · exact hgt rfl
    · exact hquot rfl
    · exact hamp rfl

/-- A value is read as it has been written. -/
theorem readsValue_escape (value rest : List Char) :
    ReadsValue (escape value ++ '"' :: rest) value rest := by
  induction value with
  | nil =>
    rw [escape_nil]
    exact .done
  | cons c value ih =>
    rw [escape_cons, List.append_assoc]
    exact .next (readsChar_escapedChar c _) ih

/-- Character data is read as it has been written. -/
theorem reads_escape (content : List Char) {cs rest : List Char} {items : List Item}
    (h : Reads cs items rest) :
    Reads (escape content ++ cs) (content.map .char ++ items) rest := by
  induction content with
  | nil => rwa [escape_nil]
  | cons c content ih =>
    rw [escape_cons, List.append_assoc]
    exact .char (readsChar_escapedChar c _) ih

/-- A name is read up to a character that belongs to no name. -/
theorem readsName_append {name : String} (hname : isNameText name.toList = true) {c : Char}
    (hc : isNameChar c = false) (rest : List Char) :
    ReadsName (name.toList ++ c :: rest) name (c :: rest) where
  isName := hname
  eq_append := rfl
  head_rest d hd := by
    obtain rfl := Option.some.inj hd
    exact hc

/-- Attributes are read as they have been written. -/
theorem readsAttributes_attributeChars {attributes : List Attribute}
    (hnames : ∀ key ∈ keysOf attributes, isNameText key.toList = true)
    (hnodup : (keysOf attributes).Nodup) {rest : List Char} (hrest : rest.head? ≠ some ' ') :
    ReadsAttributes (attributeChars attributes ++ rest) attributes rest := by
  induction attributes with
  | nil => exact .done hrest
  | cons a attributes ih =>
    obtain ⟨name, value⟩ := a
    rw [keysOf, List.map_cons, List.nodup_cons] at hnodup
    have hhead : isNameText name.toList = true := hnames name List.mem_cons_self
    have htail := ih (fun key hkey => hnames key (List.mem_cons_of_mem _ hkey)) hnodup.2
    have hsplit : attributeChars ((name, value) :: attributes) ++ rest =
        ' ' :: (name.toList ++ '=' :: '"' :: (escape value.toList ++
          '"' :: (attributeChars attributes ++ rest))) := by
      simp [attributeChars]
    rw [hsplit]
    exact .next (readsName_append hhead (by decide) _) (readsValue_escape _ _) htail hnodup.1

/-- A tag of the vocabulary is read as it has been written. -/
theorem ConformingTag.reads {name : String} {attributes : List Attribute}
    (h : ConformingTag name attributes) {c : Char} (hc : c = '/' ∨ c = '>') (rest : List Char) :
    ∃ cs, openingChars name attributes ++ c :: rest = '<' :: cs ∧
      ∃ cs₁, ReadsName cs name cs₁ ∧ ReadsAttributes cs₁ attributes (c :: rest) := by
  obtain ⟨keys, hlookup, horder⟩ := h
  have hsub := horder.sublist
  have hmem : (name, keys) ∈ vocabulary := by
    obtain ⟨_, _, hsplit, _⟩ := List.lookup_eq_some_iff.mp hlookup
    rw [hsplit]
    exact List.mem_append_right _ List.mem_cons_self
  obtain ⟨hname, hnodup, hkeys⟩ := vocabulary_lawful _ hmem
  have hattributes : ReadsAttributes (attributeChars attributes ++ c :: rest) attributes
      (c :: rest) := by
    refine readsAttributes_attributeChars (fun key hkey => hkeys key (hsub.subset hkey))
      (hnodup.sublist hsub) ?_
    rcases hc with rfl | rfl <;> simp
  refine ⟨_, by simp [openingChars], attributeChars attributes ++ c :: rest, ⟨hname, rfl, ?_⟩,
    hattributes⟩
  intro d hd
  cases attributes with
  | nil =>
    obtain rfl := Option.some.inj hd
    rcases hc with rfl | rfl <;> decide
  | cons a _ =>
    obtain rfl := Option.some.inj hd
    decide

/-- Nodes are read as they have been written, if each of them is. -/
theorem reads_charsOfList {ns : List Node}
    (h : ∀ n ∈ ns, ∀ {cs rest items}, Reads cs items rest →
      Reads (n.chars ++ cs) (n.items ++ items) rest)
    {cs rest : List Char} {items : List Item} (hrest : Reads cs items rest) :
    Reads (charsOfList ns ++ cs) (itemsOfList ns ++ items) rest := by
  induction ns with
  | nil => rwa [charsOfList_nil, itemsOfList_nil]
  | cons n ns ih =>
    rw [List.forall_mem_cons] at h
    rw [charsOfList_cons, itemsOfList_cons, List.append_assoc, List.append_assoc]
    exact h.1 (ih h.2)

/-- A node of the vocabulary is read as it has been written. -/
theorem Node.Conforms.reads {n : Node} (h : n.Conforms) {cs rest : List Char} {items : List Item}
    (hrest : Reads cs items rest) : Reads (n.chars ++ cs) (n.items ++ items) rest := by
  -- The text behind the node is arbitrary, so that it can be a closing tag for the children.
  induction h generalizing cs items rest with
  | @leaf name attributes htag =>
    obtain ⟨ds, hopening, ds', hname, hattributes⟩ := htag.reads (.inl rfl) ('>' :: cs)
    have hchars : (Node.leaf name attributes).chars ++ cs = '<' :: ds := by
      rw [← hopening]
      simp [Node.chars]
    rw [hchars, Node.items]
    exact .leaf hname hattributes hrest
  | @branch name attributes children htag _ ih =>
    obtain ⟨ds, hopening, ds', hname, hattributes⟩ := htag.reads (.inr rfl)
      (charsOfList children ++ '<' :: '/' :: (name.toList ++ '>' :: cs))
    have hchars : (Node.branch name attributes children).chars ++ cs = '<' :: ds := by
      rw [← hopening]
      simp [Node.chars, closingChars]
    have hclosing : Reads ('<' :: '/' :: (name.toList ++ '>' :: cs)) []
        ('<' :: '/' :: (name.toList ++ '>' :: cs)) := .closing
    have hcontent := reads_charsOfList ih hclosing
    rw [List.append_nil] at hcontent
    rw [hchars, Node.items]
    exact .branch hname hattributes hcontent (readsName_append hname.isName (by decide) cs) hrest
  | text content =>
    rw [Node.chars, Node.items]
    exact reads_escape content.toList hrest

/-! ### Escaping no more than is needed -/

/-- Of attributes in order only the free ones need escaping. -/
theorem InOrder.sparingAttributeChars_eq {attributes : List Attribute} {keys : List String}
    (h : InOrder attributes keys) :
    sparingAttributeChars attributes = attributeChars attributes := by
  induction h with
  | nil => rfl
  | missing _ ih => exact ih
  | @plain attributes key value _ hvalue _ ih =>
    have hsame : (if key ∈ freeKeys then escape value.toList else value.toList) =
        escape value.toList := by
      rw [escape_of_isPlain hvalue, ite_self]
    rw [attributeChars, List.flatMap_cons, ← attributeChars, ← ih, sparingAttributeChars,
      List.flatMap_cons, ← sparingAttributeChars, hsame]
  | @free attributes key value _ hkey _ ih =>
    rw [attributeChars, List.flatMap_cons, ← attributeChars, ← ih, sparingAttributeChars,
      List.flatMap_cons, ← sparingAttributeChars, if_pos hkey]

/-- Nodes need no more escaping than each of them does. -/
theorem sparingCharsOfList_eq {ns : List Node} (h : ∀ n ∈ ns, n.sparingChars = n.chars) :
    sparingCharsOfList ns = charsOfList ns := by
  induction ns with
  | nil => rw [charsOfList_nil, sparingCharsOfList]
  | cons n ns ih =>
    rw [List.forall_mem_cons] at h
    rw [charsOfList_cons, sparingCharsOfList, h.1, ih h.2]

/-- In a node of the vocabulary only free attributes and character data need escaping. -/
theorem Node.Conforms.sparingChars_eq {n : Node} (h : n.Conforms) : n.sparingChars = n.chars := by
  induction h with
  | leaf htag =>
    obtain ⟨keys, _, horder⟩ := htag
    rw [Node.chars, Node.sparingChars, openingChars, horder.sparingAttributeChars_eq]
  | branch htag _ ih =>
    obtain ⟨keys, _, horder⟩ := htag
    rw [Node.chars, Node.sparingChars, openingChars, horder.sparingAttributeChars_eq,
      sparingCharsOfList_eq ih]
  | text content => rw [Node.chars, Node.sparingChars]

/-! ### Attributes of the writer -/

/-- An attribute with a value that the writer makes up. -/
theorem InOrder.own {attributes : List Attribute} {key value : String} {keys : List String}
    (hvalue : isOwn value.toList = true) (h : InOrder attributes keys) :
    InOrder ((key, value) :: attributes) (key :: keys) :=
  .plain (isPlain_of_isOwn hvalue) h

/-- No attribute is there. -/
theorem InOrder.nil_left (keys : List String) : InOrder [] keys := by
  induction keys with
  | nil => exact .nil
  | cons key keys ih => exact .missing ih

/-- Attributes that are left out if a condition does not hold. -/
theorem InOrder.ite {attributes : List Attribute} {keys : List String} (h : InOrder attributes keys)
    (c : Prop) [Decidable c] : InOrder (if c then attributes else []) keys := by
  by_cases hc : c
  · rwa [if_pos hc]
  · rw [if_neg hc]
    exact .nil_left keys

/-- Attributes behind others. -/
theorem InOrder.append {as bs : List Attribute} {keys keys' : List String}
    (has : InOrder as keys) (hbs : InOrder bs keys') : InOrder (as ++ bs) (keys ++ keys') := by
  induction has with
  | nil => exact hbs
  | missing _ ih => exact .missing ih
  | plain hvalue _ ih => exact .plain hvalue ih
  | free hkey _ ih => exact .free hkey ih

/-- A place and a size are in order. -/
theorem inOrder_placeAttributes (x y width height : Float) :
    InOrder (placeAttributes x y width height) ["x", "y", "width", "height"] :=
  .own (isOwn_numberText x) (.own (isOwn_numberText y)
    (.own (isOwn_numberText width) (.own (isOwn_numberText height) .nil)))

/-- The attributes of an element are in order. -/
theorem inOrder_elementAttributes (e : Element Float) :
    InOrder (elementAttributes e) ["opacity", "transform"] := by
  unfold elementAttributes
  change InOrder _ (["opacity"] ++ ["transform"])
  refine .append ?_ ?_
  · exact .ite (.own (isOwn_numberText _) .nil) _
  · exact .ite (.own (isOwn_rotation _ _ _) .nil) _

/-- The ends and the joints of a stroke are in order. -/
theorem inOrder_roundStroke : InOrder roundStroke ["stroke-linecap", "stroke-linejoin"] :=
  .plain rfl (.plain rfl .nil)

/-- The dashes of a stroke are in order. -/
theorem inOrder_dashes (dashes? : Option (Float × Float)) :
    InOrder (match dashes? with
      | none => []
      | some (dash, gap) => [("stroke-dasharray", numberText dash ++ "," ++ numberText gap)])
      ["stroke-dasharray"] := by
  cases dashes? with
  | none => exact .nil_left _
  | some dash => exact .own (isOwn_dashes dash.1 dash.2) .nil

/-- The attributes of a stroke are in order. -/
theorem inOrder_strokeAttributes (e : Element Float) :
    InOrder (strokeAttributes e) strokeKeys := by
  unfold strokeAttributes
  change InOrder _ (["stroke-width", "stroke-linecap", "stroke-linejoin", "stroke-dasharray"] ++
    ["opacity", "transform"])
  refine .append (.ite (.own (isOwn_numberText e.strokeWidth) ?_) _)
    (inOrder_elementAttributes e)
  exact inOrder_roundStroke.append (inOrder_dashes _)

/-- The attributes of what is painted are in order. -/
theorem inOrder_paint (e : Element Float) (fill stroke : String) :
    InOrder (("fill", fill) :: ("stroke", stroke) :: strokeAttributes e) paintKeys :=
  .free (by decide) (.free (by decide) (inOrder_strokeAttributes e))

/-- The attributes of an arrowhead, which is never dashed, are in order. -/
theorem inOrder_headPaint (e : Element Float) (fill stroke : String) :
    InOrder (("fill", fill) :: ("stroke", stroke) :: ("stroke-width", numberText e.strokeWidth) ::
      roundStroke ++ elementAttributes e) paintKeys := by
  refine .free (by decide) (.free (by decide) (.own (isOwn_numberText e.strokeWidth) ?_))
  exact inOrder_roundStroke.append (.missing (inOrder_elementAttributes e))

/-- The transformation that flips an image is in order. -/
theorem inOrder_flipAttributes (e : Element Float) (scale : Float × Float) :
    InOrder (flipAttributes e scale) ["transform"] :=
  .ite (.own (isOwn_reflection _ _ _ _ _ _) .nil) _

/-! ### The nodes of the writer -/

/-- The node of an outline conforms. -/
theorem conforms_outlineNode (outline : Outline Float) (fill : String) (e : Element Float) :
    (outlineNode outline fill e).Conforms := by
  have hpaint := inOrder_paint e fill (strokePaint e)
  unfold outlineNode
  cases outline with
  | rect x y width height radius =>
    have hradius := isOwn_numberText radius
    have hcorners : InOrder [("rx", numberText radius), ("ry", numberText radius)] ["rx", "ry"] :=
      .own hradius (.own hradius .nil)
    have hplace := inOrder_placeAttributes x y width height
    exact .leaf ⟨_, rfl, (hplace.append (hcorners.ite _)).append hpaint⟩
  | polygon points => exact .leaf ⟨_, rfl, .own (isOwn_pointsText points) hpaint⟩
  | ellipse cx cy rx ry =>
    refine .leaf ⟨_, rfl, .own (isOwn_numberText cx) (.own (isOwn_numberText cy) ?_)⟩
    exact .own (isOwn_numberText rx) (.own (isOwn_numberText ry) hpaint)
  | path steps => exact .leaf ⟨_, rfl, .own (isOwn_pathText steps) hpaint⟩

/-- The nodes of an arrowhead conform. -/
theorem conforms_headNodes (e : Element Float) (head : Arrowhead) :
    ∀ n ∈ headNodes e head, n.Conforms := by
  intro n hn
  have hpaint := fun fill => inOrder_headPaint e fill (strokePaint e)
  cases head with
  | lines segments =>
    obtain ⟨segment, _, rfl⟩ := List.mem_map.mp hn
    exact .leaf ⟨_, rfl, .own (isOwn_pathText _) (hpaint "none")⟩
  | polygon points isOpen =>
    rw [List.mem_singleton.mp hn]
    exact .leaf ⟨_, rfl, .own (isOwn_pointsText points) (hpaint _)⟩
  | circle center radius isOpen =>
    rw [List.mem_singleton.mp hn]
    refine .leaf ⟨_, rfl, .own (isOwn_numberText center.x) ?_⟩
    exact .own (isOwn_numberText center.y) (.own (isOwn_numberText radius) (hpaint _))

/-- The node of a pattern conforms. -/
theorem conforms_patternNode (e : Element Float) (crossed : Bool) (before : Nat) :
    (patternNode e crossed before).Conforms := by
  have hgap := isOwn_numberText (Scalar.max (e.strokeWidth * 4.0) 4.0)
  refine .branch ⟨_, rfl, ?_⟩ fun n hn => ?_
  · refine .own (isOwn_patternId before) (.plain rfl ?_)
    exact .own hgap (.own hgap (.plain rfl .nil))
  · have hwidth := isOwn_numberText (Scalar.max (e.strokeWidth / 2.0) 0.5)
    have hline (x y : String) (hx : isOwn x.toList = true) (hy : isOwn y.toList = true) :
        Node.Conforms (.leaf "line" [("x1", "0"), ("y1", "0"), ("x2", x), ("y2", y),
          ("stroke", e.backgroundColor),
          ("stroke-width", numberText (Scalar.max (e.strokeWidth / 2.0) 0.5))]) := by
      refine .leaf ⟨_, rfl, .plain rfl (.plain rfl (.own hx (.own hy ?_)))⟩
      exact .free (by decide) (.own hwidth .nil)
    cases crossed with
    | false =>
      rw [List.mem_singleton.mp hn]
      exact hline _ _ rfl hgap
    | true =>
      rcases List.mem_pair.mp hn with rfl | rfl
      · exact hline _ _ rfl hgap
      · exact hline _ _ hgap rfl

/-- All nodes and all patterns of a fragment conform. -/
structure Fragment.Conforms (f : Fragment) : Prop where
  nodes : ∀ n ∈ f.nodes, n.Conforms
  patterns : ∀ n ∈ f.patterns, n.Conforms

/-- A fragment of nodes and patterns that conform. -/
theorem Fragment.conforms_mk {nodes patterns : List Node} (hnodes : ∀ n ∈ nodes, n.Conforms)
    (hpatterns : ∀ n ∈ patterns, n.Conforms) (diagnostics : Diagnostics) :
    Fragment.Conforms ⟨nodes, patterns, diagnostics⟩ :=
  ⟨hnodes, hpatterns⟩

/-- A fragment of nodes that conform. -/
theorem Fragment.conforms_ofNodes {nodes : List Node} (h : ∀ n ∈ nodes, n.Conforms) :
    (Fragment.ofNodes nodes).Conforms :=
  conforms_mk h (fun _ hn => absurd hn List.not_mem_nil) []

/-- A fragment of a single node that conforms. -/
theorem Fragment.conforms_ofNode {node : Node} (h : node.Conforms) :
    (Fragment.ofNodes [node]).Conforms :=
  conforms_ofNodes fun _ hn => List.mem_singleton.mp hn ▸ h

/-- A fragment of nothing but a diagnostic. -/
theorem Fragment.conforms_skipped (d : Diagnostic) : (Fragment.skipped d).Conforms :=
  ⟨fun _ hn => absurd hn List.not_mem_nil, fun _ hn => absurd hn List.not_mem_nil⟩

/-- The nodes of an element's outline conform. -/
theorem conforms_outlineNodes (e : Element Float) (fill : String) :
    ∀ n ∈ outlineNodes e fill, n.Conforms := by
  intro n hn
  obtain ⟨outline, _, rfl⟩ := Option.map_eq_some_iff.mp (Option.mem_toList.mp hn)
  exact conforms_outlineNode outline fill e

/-- The patterns of an element conform. -/
theorem conforms_patternsOf (e : Element Float) (before : Nat) :
    ∀ n ∈ patternsOf e before, n.Conforms := by
  intro n hn
  unfold patternsOf at hn
  split at hn
  · rw [List.mem_singleton.mp hn]
    exact conforms_patternNode e false _
  · rw [List.mem_singleton.mp hn]
    exact conforms_patternNode e true _
  · exact absurd hn List.not_mem_nil

/-- The fragment of an arrowhead conforms. -/
theorem conforms_headFragment (e : Element Float) (name : Option String)
    (tail tip : Point Float) : (headFragment e name tail tip).Conforms := by
  unfold headFragment
  cases name with
  | none => exact Fragment.conforms_ofNodes fun _ hn => absurd hn List.not_mem_nil
  | some name =>
    dsimp only
    cases Arrowhead.style? name with
    | none => exact Fragment.conforms_skipped _
    | some style => exact Fragment.conforms_ofNodes (conforms_headNodes e _)

/-- The fragment of a line conforms. -/
theorem conforms_linearFragment (e : Element Float) (path : LinearPath Float) (mayFill : Bool)
    (before : Nat) : (linearFragment e path mayFill before).Conforms := by
  unfold linearFragment
  dsimp only
  split
  · refine Fragment.conforms_mk (fun n hn => ?_) (conforms_patternsOf e before) _
    rcases List.mem_append.mp hn with hn | hn
    · rcases List.mem_append.mp hn with hn | hn
      · exact conforms_outlineNodes e _ n hn
      · exact (conforms_headFragment e _ _ _).nodes n hn
    · exact (conforms_headFragment e _ _ _).nodes n hn
  · exact Fragment.conforms_skipped _

/-- The fragment of a text conforms. -/
theorem conforms_textFragment (e : Element Float) (t : TextContent Float) :
    (textFragment e t).Conforms := by
  unfold textFragment
  split
  · exact Fragment.conforms_ofNodes fun _ hn => absurd hn List.not_mem_nil
  · refine Fragment.conforms_ofNode (.branch ⟨_, rfl, ?_⟩ fun n hn => ?_)
    · refine .missing (.missing (.own (isOwn_fontFamily _) (.own (isOwn_numberText _) ?_)))
      refine .free (by decide) (.own (isOwn_textAnchor e t) (.plain rfl ?_))
      exact inOrder_elementAttributes e
    · obtain ⟨⟨line, i⟩, _, rfl⟩ := List.mem_map.mp hn
      refine .branch ⟨_, rfl, .own (isOwn_numberText _) (.own (isOwn_numberText _) .nil)⟩
        fun m hm => ?_
      rw [List.mem_singleton.mp hm]
      exact .text _

/-- The fragment of an image conforms. -/
theorem conforms_imageFragment (files : Members) (e : Element Float) (picture : Picture Float) :
    (imageFragment files e picture).Conforms := by
  unfold imageFragment
  cases picture.fileId with
  | none => exact Fragment.conforms_skipped _
  | some fileId =>
    dsimp only
    cases dataUrl? files fileId with
    | none => exact Fragment.conforms_skipped _
    | some url =>
      refine Fragment.conforms_ofNode (.branch ⟨_, rfl, inOrder_elementAttributes e⟩ fun n hn => ?_)
      rw [List.mem_singleton.mp hn]
      have hplace := inOrder_placeAttributes e.x e.y (Scalar.nonneg e.width)
        (Scalar.nonneg e.height)
      have hurl : InOrder [("preserveAspectRatio", "none"), ("xlink:href", url)]
          ["preserveAspectRatio", "xlink:href"] :=
        .plain rfl (.free (by decide) .nil)
      exact .leaf ⟨_, rfl, (hplace.append hurl).append (inOrder_flipAttributes e picture.scale)⟩

/-- The fragment of a frame conforms. -/
theorem conforms_frameFragment (e : Element Float) (title : FrameTitle) (defaultName : String)
    (before : Nat) : (frameFragment e title defaultName before).Conforms := by
  unfold frameFragment hollowFragment
  dsimp only
  refine Fragment.conforms_mk (fun n hn => ?_) (conforms_patternsOf e before) []
  rcases List.mem_append.mp hn with hn | hn
  · exact conforms_outlineNodes e _ n hn
  · rw [List.mem_singleton.mp hn]
    refine .branch ⟨_, rfl, ?_⟩ fun m hm => ?_
    · refine .own (isOwn_numberText _) (.own (isOwn_numberText _) ?_)
      refine .own (isOwn_fontFamily 0) (.own (isOwn_numberText _) ?_)
      exact .free (by decide) (.nil_left _)
    · rw [List.mem_singleton.mp hm]
      exact .text _

/-- The fragment of an element conforms. -/
theorem conforms_fragment (files : Members) (before : Nat) (e : Element Float) :
    (fragment files before e).Conforms := by
  have hshape : ∀ fill, Fragment.Conforms ⟨outlineNodes e fill, patternsOf e before, []⟩ :=
    fun fill =>
      Fragment.conforms_mk (conforms_outlineNodes e fill) (conforms_patternsOf e before) []
  unfold fragment
  cases e.kind with
  | rectangle | diamond | ellipse => exact hshape _
  | embeddable | iframe => exact hshape _
  | line path => exact conforms_linearFragment e path true before
  | arrow path => exact conforms_linearFragment e path false before
  | freedraw stroke =>
    dsimp only [strokeFragment]
    split
    · exact Fragment.conforms_ofNodes fun _ hn => absurd hn List.not_mem_nil
    · exact hshape _
  | text t => exact conforms_textFragment e t
  | image picture => exact conforms_imageFragment files e picture
  | frame title => exact conforms_frameFragment e title _ before
  | magicFrame title => exact conforms_frameFragment e title _ before
  | other name => exact Fragment.conforms_skipped _

/-- The fragments of elements conform. -/
theorem conforms_fragments (files : Members) (before : Nat) (es : List (Element Float)) :
    ∀ f ∈ fragments files before es, f.Conforms := by
  induction es generalizing before with
  | nil => exact fun _ hf => absurd hf List.not_mem_nil
  | cons e es ih =>
    intro f hf
    rcases List.mem_cons.mp hf with rfl | hf
    · exact conforms_fragment files before e
    · exact ih _ f hf

/-! ### Documents -/

/-- The tree of a drawing conforms. -/
theorem conforms_document (measurer : Measurer Float) (standalone : Bool) (scene : Scene) :
    (document measurer standalone scene).root.Conforms := by
  have hparts := conforms_fragments scene.files 0 (visible scene.elements)
  refine .branch ⟨_, rfl, ?_⟩ fun n hn => ?_
  · have hwidth := isOwn_numberText (sceneViewport measurer scene).width
    have hheight := isOwn_numberText (sceneViewport measurer scene).height
    refine .plain rfl (.plain rfl (.plain rfl (.own hwidth (.own hheight (.own ?_ ?_)))))
    · refine isOwn_intercalate rfl fun p hp => ?_
      fin_cases hp
      · exact isOwn_numberText _
      · exact isOwn_numberText _
      · exact hwidth
      · exact hheight
    · exact .ite (.plain rfl .nil) _
  · rcases List.mem_append.mp hn with hn | hn
    · rcases List.mem_append.mp hn with hn | hn
      · split at hn
        · exact absurd hn List.not_mem_nil
        · rw [List.mem_singleton.mp hn]
          refine .branch ⟨_, rfl, .nil⟩ fun m hm => ?_
          obtain ⟨f, hf, hmem⟩ := List.mem_flatMap.mp hm
          exact (hparts f hf).patterns m hmem
      · split at hn
        · rw [List.mem_singleton.mp hn]
          have hplace := inOrder_placeAttributes (sceneViewport measurer scene).x
            (sceneViewport measurer scene).y (sceneViewport measurer scene).width
            (sceneViewport measurer scene).height
          refine .leaf ⟨_, rfl, hplace.append (.missing (.missing ?_))⟩
          exact .free (by decide) (.nil_left _)
        · exact absurd hn List.not_mem_nil
    · obtain ⟨f, hf, hmem⟩ := List.mem_flatMap.mp hn
      exact (hparts f hf).nodes n hmem

/-- The text of a drawing has one reading, whatever is in the scene: a single element `svg` that
contains what the nodes of the drawing say.  All its tags and attributes are in the vocabulary, and
to escape more than character data, colors and URLs makes no difference to the text. -/
theorem reads_document (measurer : Measurer Float) (standalone : Bool) (scene : Scene) :
    let d := document measurer standalone scene
    ∃ attributes children, d.root = .branch "svg" attributes children ∧ d.root.Conforms ∧
      d.text.toList = d.root.sparingChars ∧
      ∀ items rest, Reads d.text.toList items rest ↔
        items = [.element "svg" attributes (itemsOfList children)] ∧ rest = [] := by
  intro d
  have hroot := conforms_document measurer standalone scene
  have htext : d.text.toList = d.root.chars := by
    rw [Document.text, Node.render, String.toList_ofList]
  refine ⟨_, _, rfl, hroot, htext.trans hroot.sparingChars_eq.symm, fun items rest => ?_⟩
  have hreads := hroot.reads Reads.finished
  rw [List.append_nil, ← htext] at hreads
  constructor
  · intro h
    exact h.unique hreads
  · rintro ⟨rfl, rfl⟩
    exact hreads

end DiagramScene.Svg
