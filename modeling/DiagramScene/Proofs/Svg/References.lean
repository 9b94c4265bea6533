import Mathlib
import DiagramScene.Proofs.Keyed
import DiagramScene.Proofs.Svg.Fragments
import DiagramScene.Proofs.Svg.WellFormed

/-!
# References to patterns

A shape that is filled with lines refers to a pattern by its id.  The patterns are numbered by the
elements that bring them along, and each reference is made before it is known how many there will
be.

The main statement is `references_resolve`: the patterns of a drawing are numbered from one on, no
other id is in the drawing, and every reference that the writer makes up leads to the pattern that
was made for the same element.
-/

namespace DiagramScene.Svg

/-! ### Attributes of a tree -/

mutual

/-- The attributes of a node and of the nodes in it, in the order in which they are written. -/
def Node.allAttributes : Node → List Attribute
  | .leaf _ attributes => attributes
  | .branch _ attributes children => attributes ++ attributesOfList children
  | .text _ => []

/-- The attributes of nodes, one behind the other. -/
def attributesOfList : List Node → List Attribute
  | [] => []
  | n :: ns => Node.allAttributes n ++ attributesOfList ns

end

theorem attributesOfList_nil : attributesOfList [] = [] := by simp [attributesOfList]

theorem attributesOfList_cons (n : Node) (ns : List Node) :
    attributesOfList (n :: ns) = n.allAttributes ++ attributesOfList ns := by
  simp [attributesOfList]

theorem attributesOfList_append (ns ms : List Node) :
    attributesOfList (ns ++ ms) = attributesOfList ns ++ attributesOfList ms := by
  induction ns with
  | nil => rw [List.nil_append, attributesOfList_nil, List.nil_append]
  | cons n ns ih =>
    rw [List.cons_append, attributesOfList_cons, attributesOfList_cons, ih, List.append_assoc]

/-- An attribute of nodes is one of some node among them. -/
theorem mem_attributesOfList {a : Attribute} {ns : List Node} :
    a ∈ attributesOfList ns ↔ ∃ n ∈ ns, a ∈ n.allAttributes := by
  induction ns with
  | nil => simp [attributesOfList_nil]
  | cons n ns ih => rw [attributesOfList_cons, List.mem_append, ih, List.exists_mem_cons_iff]

/-- The ids among some attributes, in order. -/
def idsOf (attributes : List Attribute) : List String :=
  (attributes.filter (·.1 = "id")).map (·.2)

theorem idsOf_append (as bs : List Attribute) : idsOf (as ++ bs) = idsOf as ++ idsOf bs := by
  rw [idsOf, List.filter_append, List.map_append, idsOf, idsOf]

/-- There is no id if no attribute has its name. -/
theorem idsOf_eq_nil {attributes : List Attribute} (h : ∀ a ∈ attributes, a.1 ≠ "id") :
    idsOf attributes = [] := by
  rw [idsOf, List.filter_eq_nil_iff.mpr, List.map_nil]
  intro a ha
  rw [decide_eq_true_eq]
  exact h a ha

/-- Only a pattern has an id. -/
theorem ConformingTag.idsOf_eq_nil {name : String} {attributes : List Attribute}
    (h : ConformingTag name attributes) (hname : name ≠ "pattern") : idsOf attributes = [] := by
  have hvocabulary : ∀ tag ∈ vocabulary, tag.1 ≠ "pattern" → "id" ∉ tag.2 := by decide
  obtain ⟨keys, hkeys, horder⟩ := h
  refine Svg.idsOf_eq_nil fun a ha hid => ?_
  have hmem : a.1 ∈ keys := horder.sublist.subset (List.mem_map_of_mem ha)
  exact hvocabulary (name, keys) (Keyed.mem_of_get? hkeys) hname (hid ▸ hmem)

/-! ### The numbers of patterns -/

/-- Patterns with different numbers have different ids. -/
theorem patternId_injective : Function.Injective patternId := by
  intro m n h
  have htail (k : Nat) : (patternId k).toList = "fill-".toList ++ Nat.toDigits 10 k := by
    rw [← Nat.toList_repr, ← String.toList_append]
    rfl
  have hdigits : Nat.toDigits 10 m = Nat.toDigits 10 n := by
    have hchars := congrArg String.toList h
    rwa [htail, htail, List.append_cancel_left_eq] at hchars
  simpa using congrArg (fun digits => Nat.ofDigitChars 10 digits 0) hdigits

/-- A pattern of lines in a color and of a width, under a number. -/
def patternFor (color : String) (width : Float) (crossed : Bool) (n : Nat) : Node :=
  patternNode { Element.ofKind .rectangle with backgroundColor := color, strokeWidth := width }
    crossed n

/-- The pattern of an element depends on its background color and the width of its stroke. -/
theorem patternNode_eq (e : Element Float) (crossed : Bool) (n : Nat) :
    patternNode e crossed n = patternFor e.backgroundColor e.strokeWidth crossed n := rfl

/-- The attributes of a pattern have one id, which is that of its number. -/
theorem idsOf_patternNode (e : Element Float) (crossed : Bool) (n : Nat) :
    idsOf (patternNode e crossed n).allAttributes = [patternId n] := by
  cases crossed <;>
    simp [patternNode, Node.allAttributes, attributesOfList, idsOf]

/-- An element brings along no pattern, or one with the next number. -/
theorem patternsOf_cases (e : Element Float) (before : Nat) :
    patternsOf e before = [] ∨
      ∃ crossed, patternsOf e before = [patternNode e crossed (before + 1)] := by
  unfold patternsOf
  cases fillOf e with
  | none | solid => exact .inl rfl
  | hatched => exact .inr ⟨false, rfl⟩
  | crossHatched => exact .inr ⟨true, rfl⟩

/-! ### Attributes of the writer -/

/-- The URL of the pattern with a number. -/
def patternUrl (n : Nat) : String := "url(#" ++ patternId n ++ ")"

/-- A value refers to something in the drawing, or to a part of another document. -/
def HoldsReference (value : String) : Prop := "url(#".toList <:+: value.toList

/-- The attributes in which a text of an element stands as it is. -/
inductive IsCopied (files : Members) (e : Element Float) : Attribute → Prop
  | stroke : IsCopied files e ("stroke", e.strokeColor)
  | fill : IsCopied files e ("fill", e.strokeColor)
  | background : IsCopied files e ("fill", e.backgroundColor)
  | data {picture : Picture Float} {fileId url : String} (kind : e.kind = .image picture)
      (file : picture.fileId = some fileId) (data : dataUrl? files fileId = some url) :
      IsCopied files e ("xlink:href", url)

/-- The attributes that the writer makes up without any reference. -/
def IsOwnAttribute (a : Attribute) : Prop := a.1 ≠ "id" ∧ isOwn a.2.toList = true

/-- The attributes in the nodes of an element that has so many patterns before it and brings these
along. -/
inductive IsWritten (files : Members) (before : Nat) (e : Element Float) (patterns : List Node) :
    Attribute → Prop
  | own {a : Attribute} (h : IsOwnAttribute a) : IsWritten files before e patterns a
  | title : IsWritten files before e patterns ("fill", titleColor)
  | copied {a : Attribute} (h : IsCopied files e a) : IsWritten files before e patterns a
  | reference (h : patterns ≠ []) :
      IsWritten files before e patterns ("fill", patternUrl (before + 1))

/-- A value of the writer under a name. -/
theorem own_attribute {key value : String} (hkey : key ≠ "id")
    (hvalue : isOwn value.toList = true) : IsOwnAttribute (key, value) :=
  ⟨hkey, hvalue⟩

/-- A number under a name. -/
theorem own_number {key : String} (hkey : key ≠ "id") (x : Float) :
    IsOwnAttribute (key, numberText x) :=
  own_attribute hkey (isOwn_numberText x)

/-- Attributes that are left out if a condition does not hold. -/
theorem forall_mem_ite_nil {P : Attribute → Prop} {attributes : List Attribute}
    (h : ∀ a ∈ attributes, P a) (c : Prop) [Decidable c] :
    ∀ a ∈ if c then attributes else [], P a := by
  split
  · exact h
  · exact List.forall_mem_nil _

/-- A place and a size are made of numbers. -/
theorem own_placeAttributes (x y width height : Float) :
    ∀ a ∈ placeAttributes x y width height, IsOwnAttribute a := by
  simp only [placeAttributes, List.forall_mem_cons]
  exact ⟨own_number (by decide) x, own_number (by decide) y, own_number (by decide) width,
    own_number (by decide) height, List.forall_mem_nil _⟩

/-- The opacity and the rotation of an element are made of numbers. -/
theorem own_elementAttributes (e : Element Float) :
    ∀ a ∈ elementAttributes e, IsOwnAttribute a := by
  unfold elementAttributes
  dsimp only
  rw [List.forall_mem_append]
  constructor
  · apply forall_mem_ite_nil
    exact List.forall_mem_singleton.mpr (own_number (by decide) _)
  · apply forall_mem_ite_nil
    exact List.forall_mem_singleton.mpr (own_attribute (by decide) (isOwn_rotation _ _ _))

/-- The ends and the joints of a stroke are words of the writer. -/
theorem own_roundStroke : ∀ a ∈ roundStroke, IsOwnAttribute a := by
  simp only [roundStroke, List.forall_mem_cons]
  exact ⟨own_attribute (by decide) rfl, own_attribute (by decide) rfl, List.forall_mem_nil _⟩

/-- The attributes of a stroke beside its color are made up by the writer. -/
theorem own_strokeAttributes (e : Element Float) :
    ∀ a ∈ strokeAttributes e, IsOwnAttribute a := by
  unfold strokeAttributes
  dsimp only
  rw [List.forall_mem_append]
  refine ⟨forall_mem_ite_nil ?_ _, own_elementAttributes e⟩
  rw [List.cons_append, List.forall_mem_cons, List.forall_mem_append]
  refine ⟨own_number (by decide) _, own_roundStroke, ?_⟩
  cases dashes? e.strokeStyle e.strokeWidth with
  | none => exact List.forall_mem_nil _
  | some dash => exact List.forall_mem_singleton.mpr (own_attribute (by decide) (isOwn_dashes _ _))

/-- The transformation that flips an image is made of numbers. -/
theorem own_flipAttributes (e : Element Float) (scale : Float × Float) :
    ∀ a ∈ flipAttributes e scale, IsOwnAttribute a := by
  apply forall_mem_ite_nil
  have htext := isOwn_reflection (middle e).x (middle e).y (Scalar.sign scale.1)
    (Scalar.sign scale.2) (-(middle e).x) (-(middle e).y)
  exact List.forall_mem_singleton.mpr (own_attribute (by decide) htext)

section Written

variable {files : Members} {before : Nat} {e : Element Float} {patterns : List Node}

/-- No fill, and no stroke. -/
theorem written_none {key : String} (hkey : key ≠ "id") :
    IsWritten files before e patterns (key, "none") :=
  .own (own_attribute hkey rfl)

/-- The color of a stroke is copied, if there is a stroke. -/
theorem written_stroke : IsWritten files before e patterns ("stroke", strokePaint e) := by
  unfold strokePaint
  split
  · exact .copied .stroke
  · exact written_none (by decide)

/-- The fill of a shape that brings its pattern along refers to it. -/
theorem written_fillPaint :
    IsWritten files before e (patternsOf e before) ("fill", fillPaint e before) := by
  unfold fillPaint patternsOf
  cases fillOf e with
  | none => exact written_none (by decide)
  | solid => exact .copied .background
  | hatched => exact .reference (List.cons_ne_nil _ _)
  | crossHatched => exact .reference (List.cons_ne_nil _ _)

/-- The fill of an arrowhead is copied. -/
theorem written_headFill (isOpen : Bool) :
    IsWritten files before e patterns ("fill", headFill e isOpen) := by
  unfold headFill strokePaint
  split
  · split
    · exact .copied .background
    · exact written_none (by decide)
  · split
    · exact .copied .fill
    · exact written_none (by decide)

/-- The attributes of an outline that is filled. -/
theorem written_outlineNode (outline : Outline Float) {fill : String}
    (hfill : IsWritten files before e patterns ("fill", fill)) :
    ∀ a ∈ (outlineNode outline fill e).allAttributes, IsWritten files before e patterns a := by
  have hpaint : ∀ a ∈ ("fill", fill) :: ("stroke", strokePaint e) :: strokeAttributes e,
      IsWritten files before e patterns a := by
    rw [List.forall_mem_cons, List.forall_mem_cons]
    exact ⟨hfill, written_stroke, fun a ha => .own (own_strokeAttributes e a ha)⟩
  cases outline with
  | rect x y width height radius =>
    change ∀ a ∈ placeAttributes x y width height ++ _ ++ _, _
    rw [List.forall_mem_append, List.forall_mem_append]
    refine ⟨⟨fun a ha => .own (own_placeAttributes x y width height a ha), ?_⟩, hpaint⟩
    apply forall_mem_ite_nil
    rw [List.forall_mem_cons, List.forall_mem_singleton]
    exact ⟨.own (own_number (by decide) _), .own (own_number (by decide) _)⟩
  | polygon points =>
    have hpoints := own_attribute (by decide : "points" ≠ "id") (isOwn_pointsText points)
    exact List.forall_mem_cons.mpr ⟨.own hpoints, hpaint⟩
  | ellipse cx cy rx ry =>
    simp only [outlineNode, Node.allAttributes, List.cons_append, List.forall_mem_cons]
    exact ⟨.own (own_number (by decide) cx), .own (own_number (by decide) cy),
      .own (own_number (by decide) rx), .own (own_number (by decide) ry), hpaint⟩
  | path steps =>
    have hsteps := own_attribute (by decide : "d" ≠ "id") (isOwn_pathText steps)
    exact List.forall_mem_cons.mpr ⟨.own hsteps, hpaint⟩

/-- The attributes of an element's outline. -/
theorem written_outlineNodes {fill : String}
    (hfill : IsWritten files before e patterns ("fill", fill)) :
    ∀ a ∈ attributesOfList (outlineNodes e fill), IsWritten files before e patterns a := by
  unfold outlineNodes
  cases outline? e with
  | none => exact List.forall_mem_nil _
  | some outline =>
    intro a ha
    obtain ⟨n, hn, ha⟩ := mem_attributesOfList.mp ha
    rw [List.mem_singleton.mp hn] at ha
    exact written_outlineNode outline hfill a ha

/-- The attributes of an arrowhead. -/
theorem written_headNodes (head : Arrowhead) :
    ∀ a ∈ attributesOfList (headNodes e head), IsWritten files before e patterns a := by
  have hstroke : ∀ a ∈ ("stroke", strokePaint e) :: ("stroke-width", numberText e.strokeWidth) ::
      roundStroke ++ elementAttributes e, IsWritten files before e patterns a := by
    rw [List.cons_append, List.cons_append, List.forall_mem_cons, List.forall_mem_cons,
      List.forall_mem_append]
    exact ⟨written_stroke, .own (own_number (by decide) _), fun a ha => .own (own_roundStroke a ha),
      fun a ha => .own (own_elementAttributes e a ha)⟩
  cases head with
  | lines segments =>
    have hline (text : String) (htext : isOwn text.toList = true) : ∀ a ∈ ("d", text) ::
        ("fill", "none") :: ("stroke", strokePaint e) ::
          ("stroke-width", numberText e.strokeWidth) :: roundStroke ++ elementAttributes e,
        IsWritten files before e patterns a :=
      List.forall_mem_cons.mpr ⟨.own (own_attribute (by decide) htext),
        List.forall_mem_cons.mpr ⟨written_none (by decide), hstroke⟩⟩
    intro a ha
    obtain ⟨n, hn, hmem⟩ := mem_attributesOfList.mp ha
    obtain ⟨segment, -, rfl⟩ := List.mem_map.mp hn
    exact hline _ (isOwn_pathText _) a hmem
  | polygon points isOpen =>
    have hpoints := own_attribute (by decide : "points" ≠ "id") (isOwn_pointsText points)
    rw [headNodes, attributesOfList_cons, attributesOfList_nil, List.append_nil]
    refine List.forall_mem_cons.mpr ⟨.own hpoints, ?_⟩
    exact List.forall_mem_cons.mpr ⟨written_headFill isOpen, hstroke⟩
  | circle center radius isOpen =>
    rw [headNodes, attributesOfList_cons, attributesOfList_nil, List.append_nil]
    refine List.forall_mem_append.mpr ⟨?_, hstroke⟩
    simp only [List.forall_mem_cons]
    exact ⟨.own (own_number (by decide) _), .own (own_number (by decide) _),
      .own (own_number (by decide) _), written_headFill isOpen, List.forall_mem_nil _⟩

/-- The attributes of the arrowhead with a name. -/
theorem written_headFragment (name : Option String) (tail tip : Point Float) :
    ∀ a ∈ attributesOfList (headFragment e name tail tip).nodes,
      IsWritten files before e patterns a := by
  unfold headFragment
  cases name with
  | none => exact List.forall_mem_nil _
  | some name =>
    dsimp only
    cases Arrowhead.style? name with
    | none => exact List.forall_mem_nil _
    | some style => exact written_headNodes _

end Written

/-! ### Fragments -/

/-- A fragment is written for an element: it brings along the pattern of the element or none, and
refers to nothing else. -/
structure Fragment.WrittenFor (f : Fragment) (files : Members) (before : Nat) (e : Element Float) :
    Prop where
  patterns : f.patterns = [] ∨ f.patterns = patternsOf e before
  attributes : ∀ a ∈ attributesOfList f.nodes, IsWritten files before e f.patterns a

section WrittenFor

variable {files : Members} {before : Nat} {e : Element Float}

/-- Nodes without a pattern. -/
theorem writtenFor_ofNodes {nodes : List Node}
    (h : ∀ a ∈ attributesOfList nodes, IsWritten files before e [] a) :
    (Fragment.ofNodes nodes).WrittenFor files before e :=
  ⟨.inl rfl, h⟩

/-- No nodes. -/
theorem writtenFor_skipped (d : Diagnostic) : (Fragment.skipped d).WrittenFor files before e :=
  ⟨.inl rfl, List.forall_mem_nil _⟩

/-- Nodes with the pattern of their element. -/
theorem writtenFor_mk {nodes : List Node}
    (h : ∀ a ∈ attributesOfList nodes, IsWritten files before e (patternsOf e before) a)
    (diagnostics : Diagnostics) :
    Fragment.WrittenFor ⟨nodes, patternsOf e before, diagnostics⟩ files before e := by
  constructor
  · right
    dsimp only
  · dsimp only
    exact h

/-- An outline with other nodes behind it. -/
theorem writtenFor_outline {fill : String} {others : List Node}
    (hfill : IsWritten files before e (patternsOf e before) ("fill", fill))
    (hothers : ∀ a ∈ attributesOfList others, IsWritten files before e (patternsOf e before) a)
    (diagnostics : Diagnostics) :
    Fragment.WrittenFor ⟨outlineNodes e fill ++ others, patternsOf e before, diagnostics⟩
      files before e := by
  apply writtenFor_mk
  rw [attributesOfList_append, List.forall_mem_append]
  exact ⟨written_outlineNodes hfill, hothers⟩

/-- A shape that is filled. -/
theorem writtenFor_filledFragment : (filledFragment e before).WrittenFor files before e := by
  unfold filledFragment
  exact writtenFor_mk (written_outlineNodes written_fillPaint) []

/-- A shape whose inside stays empty. -/
theorem writtenFor_hollowFragment : (hollowFragment e before).WrittenFor files before e := by
  unfold hollowFragment
  exact writtenFor_mk (written_outlineNodes (written_none (by decide))) []

/-- A line or an arrow. -/
theorem writtenFor_linearFragment (path : LinearPath Float) (mayFill : Bool) :
    (linearFragment e path mayFill before).WrittenFor files before e := by
  rcases lt_or_ge (finitePoints e path.points).length 2 with hfew | henough
  · rw [linearFragment_of_lt hfew]
    exact writtenFor_skipped _
  · obtain ⟨fill, start, finish, hfill, ⟨tail, tip, rfl⟩, ⟨tail', tip', rfl⟩, hfragment⟩ :=
      exists_linearFragment henough mayFill before
    have hwritten : IsWritten files before e (patternsOf e before) ("fill", fill) := by
      rcases hfill with hfill | hfill
      · rw [hfill]
        exact written_fillPaint
      · rw [hfill]
        exact written_none (by decide)
    rw [hfragment, List.append_assoc]
    apply writtenFor_outline hwritten
    rw [attributesOfList_append, List.forall_mem_append]
    exact ⟨written_headFragment _ _ _, written_headFragment _ _ _⟩

/-- A text. -/
theorem writtenFor_textFragment (t : TextContent Float) :
    (textFragment e t).WrittenFor files before e := by
  unfold textFragment
  split
  · exact writtenFor_ofNodes (List.forall_mem_nil _)
  · have hspan (x y : Float) (line : String) :
        ∀ a ∈ (Node.branch "tspan" [("x", numberText x), ("y", numberText y)]
          [.text line]).allAttributes, IsWritten files before e [] a := by
      simp only [Node.allAttributes, attributesOfList_cons, attributesOfList_nil, List.append_nil,
        List.forall_mem_cons]
      exact ⟨.own (own_number (by decide) x), .own (own_number (by decide) y),
        List.forall_mem_nil _⟩
    apply writtenFor_ofNodes
    rw [attributesOfList_cons, attributesOfList_nil, List.append_nil, Node.allAttributes,
      List.forall_mem_append, List.forall_mem_append]
    refine ⟨⟨?_, fun a ha => .own (own_elementAttributes e a ha)⟩, fun a ha => ?_⟩
    · simp only [List.forall_mem_cons]
      exact ⟨.own (own_attribute (by decide) (isOwn_fontFamily _)), .own (own_number (by decide) _),
        .copied .fill, .own (own_attribute (by decide) (isOwn_textAnchor e t)),
        .own (own_attribute (by decide) rfl), List.forall_mem_nil _⟩
    · obtain ⟨n, hn, hmem⟩ := mem_attributesOfList.mp ha
      obtain ⟨line, -, rfl⟩ := List.mem_map.mp hn
      exact hspan _ _ _ a hmem

/-- An image. -/
theorem writtenFor_imageFragment {picture : Picture Float} (kind : e.kind = .image picture) :
    (imageFragment files e picture).WrittenFor files before e := by
  unfold imageFragment
  cases hfile : picture.fileId with
  | none => exact writtenFor_skipped _
  | some fileId =>
    dsimp only
    cases hdata : dataUrl? files fileId with
    | none => exact writtenFor_skipped _
    | some url =>
      apply writtenFor_ofNodes
      rw [attributesOfList_cons, attributesOfList_nil, List.append_nil, Node.allAttributes,
        List.forall_mem_append, attributesOfList_cons, attributesOfList_nil, List.append_nil,
        Node.allAttributes, List.forall_mem_append, List.forall_mem_append]
      refine ⟨fun a ha => .own (own_elementAttributes e a ha),
        ⟨fun a ha => .own (own_placeAttributes _ _ _ _ a ha), ?_⟩,
        fun a ha => .own (own_flipAttributes e _ a ha)⟩
      simp only [List.forall_mem_cons]
      exact ⟨.own (own_attribute (by decide) rfl), .copied (.data kind hfile hdata),
        List.forall_mem_nil _⟩

/-- A frame with its title. -/
theorem writtenFor_frameFragment (title : FrameTitle) (defaultName : String) :
    (frameFragment e title defaultName before).WrittenFor files before e := by
  unfold frameFragment hollowFragment
  dsimp only
  refine writtenFor_outline (written_none (by decide)) ?_ []
  simp only [attributesOfList_cons, attributesOfList_nil, Node.allAttributes, List.append_nil,
    List.forall_mem_cons]
  exact ⟨.own (own_number (by decide) _), .own (own_number (by decide) _),
    .own (own_attribute (by decide) (isOwn_fontFamily 0)), .own (own_number (by decide) _), .title,
    List.forall_mem_nil _⟩

/-- Every fragment is written for its element. -/
theorem writtenFor_fragment (files : Members) (before : Nat) (e : Element Float) :
    (fragment files before e).WrittenFor files before e := by
  unfold fragment
  cases kind : e.kind with
  | rectangle | diamond | ellipse => exact writtenFor_filledFragment
  | embeddable | iframe => exact writtenFor_hollowFragment
  | line path => exact writtenFor_linearFragment path true
  | arrow path => exact writtenFor_linearFragment path false
  | freedraw stroke =>
    dsimp only [strokeFragment]
    split
    · exact writtenFor_ofNodes (List.forall_mem_nil _)
    · exact writtenFor_hollowFragment
  | text t => exact writtenFor_textFragment t
  | image picture => exact writtenFor_imageFragment kind
  | frame title => exact writtenFor_frameFragment title "Frame"
  | magicFrame title => exact writtenFor_frameFragment title "AI Frame"
  | other name => exact writtenFor_skipped _

end WrittenFor

/-- A fragment brings along no pattern, or one that is made for its element. -/
theorem patterns_fragment_cases (files : Members) (before : Nat) (e : Element Float) :
    (fragment files before e).patterns = [] ∨
      ∃ crossed, (fragment files before e).patterns =
        [patternFor e.backgroundColor e.strokeWidth crossed (before + 1)] := by
  rcases (writtenFor_fragment files before e).patterns with hnone | hpatterns
  · exact .inl hnone
  · rw [hpatterns]
    exact patternsOf_cases e before

/-- A pattern under a number is made for one of some elements. -/
def IsPatternOf (es : List (Element Float)) (n : Nat) (pattern : Node) : Prop :=
  ∃ e ∈ es, ∃ crossed, pattern = patternFor e.backgroundColor e.strokeWidth crossed n

/-- The patterns of elements are numbered without a gap, from the next number on. -/
theorem forall₂_patternsFrom (files : Members) (before : Nat) (es : List (Element Float)) :
    List.Forall₂ (IsPatternOf es) (List.range' (before + 1) (patternsFrom files before es).length)
      (patternsFrom files before es) := by
  -- The number of patterns before an element grows by those that the elements before it bring along.
  induction es generalizing before with
  | nil => exact .nil
  | cons e es ih =>
    have hlater {n : Nat} {pattern : Node} (h : IsPatternOf es n pattern) :
        IsPatternOf (e :: es) n pattern := by
      obtain ⟨e', he', hpattern⟩ := h
      exact ⟨e', List.mem_cons_of_mem e he', hpattern⟩
    have hrest := (ih (before + (fragment files before e).patterns.length)).imp fun _ _ => hlater
    rw [patternsFrom_cons]
    rcases patterns_fragment_cases files before e with hnone | ⟨crossed, hone⟩
    · rw [hnone] at hrest ⊢
      exact hrest
    · rw [hone] at hrest ⊢
      rw [List.singleton_append, List.length_cons, List.range'_succ]
      exact .cons ⟨e, List.mem_cons_self, crossed, rfl⟩ hrest

/-- The ids of numbered patterns are those of their numbers. -/
theorem idsOf_of_forall₂ {es : List (Element Float)} {numbers : List Nat} {patterns : List Node}
    (h : List.Forall₂ (IsPatternOf es) numbers patterns) :
    idsOf (attributesOfList patterns) = numbers.map patternId := by
  induction h with
  | nil => rfl
  | cons hpattern _ ih =>
    obtain ⟨e, -, crossed, rfl⟩ := hpattern
    rw [attributesOfList_cons, idsOf_append, ih, ← patternNode_eq, idsOf_patternNode]
    rfl

/-! ### References -/

/-- No attribute in the body of a drawing is an id. -/
theorem IsWritten.key_ne {files : Members} {before : Nat} {e : Element Float}
    {patterns : List Node} {a : Attribute} (h : IsWritten files before e patterns a) :
    a.1 ≠ "id" := by
  cases h with
  | own h => exact h.1
  | title => exact (by decide : "fill" ≠ "id")
  | copied h =>
    cases h with
    | stroke => exact (by decide : "stroke" ≠ "id")
    | fill => exact (by decide : "fill" ≠ "id")
    | background => exact (by decide : "fill" ≠ "id")
    | data _ _ _ => exact (by decide : "xlink:href" ≠ "id")
  | reference _ => exact (by decide : "fill" ≠ "id")

/-- No other reference is made up than the one to the pattern that is brought along. -/
theorem IsWritten.of_holdsReference {files : Members} {before : Nat} {e : Element Float}
    {patterns : List Node} {a : Attribute} (h : IsWritten files before e patterns a)
    (href : HoldsReference a.2) :
    IsCopied files e a ∨ (patterns ≠ [] ∧ a = ("fill", patternUrl (before + 1))) := by
  cases h with
  | own h =>
    -- A reference has a `#`, which is in no text that the writer makes up.
    have hhash : isOwnChar '#' = true :=
      List.all_eq_true.mp h.2 '#' (href.subset (by decide : '#' ∈ "url(#".toList))
    exact absurd hhash (by decide)
  | title =>
    have hletter : 'u' ∈ titleColor.toList := href.subset (by decide : 'u' ∈ "url(#".toList)
    exact absurd hletter (by decide)
  | copied h => exact .inl h
  | reference h => exact .inr ⟨h, rfl⟩

/-- A pattern that is made for an element stands under a number. -/
def IsFound (patterns : List Node) (e : Element Float) (n : Nat) : Prop :=
  1 ≤ n ∧ n ≤ patterns.length ∧
    ∃ crossed, patterns[n - 1]? = some (patternFor e.backgroundColor e.strokeWidth crossed n)

/-- The references of an element that has so many patterns before it lead to the pattern that was
made for it: the pattern that it brings along is found, a shape with such a pattern refers to it,
and an attribute that refers to anything refers to this pattern, unless it was copied. -/
structure ReferencesResolve (files : Members) (patterns : List Node) (before : Nat)
    (e : Element Float) : Prop where
  found : (fragment files before e).patterns ≠ [] → IsFound patterns e (before + 1)
  refers : e.kind = .rectangle ∨ e.kind = .diamond ∨ e.kind = .ellipse →
    (fragment files before e).patterns ≠ [] →
    ("fill", patternUrl (before + 1)) ∈ attributesOfList (fragment files before e).nodes
  resolved : ∀ a ∈ attributesOfList (fragment files before e).nodes, HoldsReference a.2 →
    IsCopied files e a ∨
      (a = ("fill", patternUrl (before + 1)) ∧ IsFound patterns e (before + 1))

/-- The pattern that an element brings along is found under the next number. -/
theorem isFound_of_patterns_ne_nil (files : Members) {es : List (Element Float)}
    {p : Element Float × Nat} (hp : p ∈ es.zipIdx)
    (h : (fragment files (patternsBefore files es p.2) p.1).patterns ≠ []) :
    IsFound (patternsFrom files 0 es) p.1 (patternsBefore files es p.2 + 1) := by
  obtain ⟨crossed, hone⟩ := (patterns_fragment_cases files _ p.1).resolve_left h
  obtain ⟨later, hpatterns⟩ := exists_patternsFrom_zero_eq files hp
  rw [hone] at hpatterns
  have hlength : (patternsFrom files 0 (es.take p.2)).length = patternsBefore files es p.2 := rfl
  refine ⟨Nat.le_add_left 1 _, ?_, crossed, ?_⟩
  · rw [hpatterns, List.length_append, hlength, List.singleton_append, List.length_cons]
    omega
  · rw [hpatterns, Nat.add_sub_cancel, ← hlength, List.getElem?_append_right (le_refl _),
      Nat.sub_self]
    rfl

/-- An outline is filled as it should be. -/
theorem fill_mem_outlineNode (outline : Outline Float) (fill : String) (e : Element Float) :
    ("fill", fill) ∈ (outlineNode outline fill e).allAttributes := by
  cases outline with
  | rect => exact List.mem_append_right _ List.mem_cons_self
  | polygon => exact List.mem_cons_of_mem _ List.mem_cons_self
  | ellipse => exact List.mem_append_right _ List.mem_cons_self
  | path => exact List.mem_cons_of_mem _ List.mem_cons_self

/-- A shape that is filled refers to the pattern that it brings along. -/
theorem patternUrl_mem_filledFragment {e : Element Float} {outline : Outline Float}
    (houtline : outline? e = some outline) {before : Nat}
    (h : (filledFragment e before).patterns ≠ []) :
    ("fill", patternUrl (before + 1)) ∈ attributesOfList (filledFragment e before).nodes := by
  have hfill : fillPaint e before = patternUrl (before + 1) := by
    unfold fillPaint
    unfold filledFragment patternsOf at h
    dsimp only at h
    cases hfill : fillOf e with
    | none | solid =>
      rw [hfill] at h
      exact absurd rfl h
    | hatched | crossHatched => rfl
  have hnodes : (filledFragment e before).nodes =
      [outlineNode outline (patternUrl (before + 1)) e] := by
    rw [filledFragment, outlineNodes, houtline, hfill]
    rfl
  rw [hnodes, attributesOfList_cons]
  exact List.mem_append_left _ (fill_mem_outlineNode _ _ _)

/-- The references of every element of a drawing resolve. -/
theorem referencesResolve_of_mem (files : Members) {es : List (Element Float)}
    {p : Element Float × Nat} (hp : p ∈ es.zipIdx) :
    ReferencesResolve files (patternsFrom files 0 es) (patternsBefore files es p.2) p.1 where
  found := isFound_of_patterns_ne_nil files hp
  refers kind h := by
    have houtline : ∃ outline, outline? p.1 = some outline := by
      rcases kind with kind | kind | kind <;>
        · rw [outline?, kind]
          exact ⟨_, rfl⟩
    have hfragment : fragment files (patternsBefore files es p.2) p.1 =
        filledFragment p.1 (patternsBefore files es p.2) := by
      rcases kind with kind | kind | kind <;> rw [fragment, kind]
    obtain ⟨outline, houtline⟩ := houtline
    rw [hfragment] at h ⊢
    exact patternUrl_mem_filledFragment houtline h
  resolved a ha href := by
    have hwritten := (writtenFor_fragment files (patternsBefore files es p.2) p.1).attributes a ha
    rcases hwritten.of_holdsReference href with hcopied | ⟨hpatterns, rfl⟩
    · exact .inl hcopied
    · exact .inr ⟨rfl, isFound_of_patterns_ne_nil files hp hpatterns⟩

/-- The body of a drawing has no ids. -/
theorem idsOf_nodesFrom (files : Members) (es : List (Element Float)) :
    idsOf (attributesOfList (nodesFrom files 0 es)) = [] := by
  apply idsOf_eq_nil
  intro a ha
  obtain ⟨n, hn, hmem⟩ := mem_attributesOfList.mp ha
  rw [nodesFrom_zero_eq_flatMap_zipIdx] at hn
  obtain ⟨p, -, hn⟩ := List.mem_flatMap.mp hn
  have hfragment : a ∈ attributesOfList (fragment files (patternsBefore files es p.2) p.1).nodes :=
    mem_attributesOfList.mpr ⟨n, hn, hmem⟩
  exact ((writtenFor_fragment files _ p.1).attributes a hfragment).key_ne

/-- The ids of a drawing are those of its patterns. -/
theorem idsOf_laidOut {attributes : List Attribute} {patterns background body : List Node}
    (hconforms : (laidOut attributes patterns background body).Conforms)
    (hbackground : IsBackground background) (hbody : idsOf (attributesOfList body) = []) :
    idsOf (laidOut attributes patterns background body).allAttributes =
      idsOf (attributesOfList patterns) := by
  have hdefinitions : attributesOfList (definitions patterns) = attributesOfList patterns := by
    cases patterns with
    | nil => rfl
    | cons n ns =>
      have hdefs : definitions (n :: ns) = [.branch "defs" [] (n :: ns)] := rfl
      rw [hdefs, attributesOfList_cons, attributesOfList_nil, List.append_nil, Node.allAttributes,
        List.nil_append]
  cases hconforms with
  | branch htag hchildren =>
    have hroot : idsOf attributes = [] := htag.idsOf_eq_nil (by decide)
    have hbehind : idsOf (attributesOfList background) = [] := by
      rcases hbackground with rfl | ⟨rectAttributes, rfl⟩
      · rfl
      · have hmem : Node.leaf "rect" rectAttributes ∈
            definitions patterns ++ [.leaf "rect" rectAttributes] ++ body := by simp
        cases hchildren _ hmem with
        | leaf htag =>
          rw [attributesOfList_cons, attributesOfList_nil, List.append_nil]
          exact htag.idsOf_eq_nil (by decide)
    rw [laidOut, Node.allAttributes, attributesOfList_append, attributesOfList_append, hdefinitions,
      idsOf_append, idsOf_append, idsOf_append, hroot, hbehind, hbody, List.append_nil,
      List.append_nil, List.nil_append]

/-- Every reference of a drawing resolves that the writer makes up.  The patterns are numbered from
one on and have the only ids of the drawing, which are all different.  An element refers to nothing
but the pattern under its own number, which is there and made of its background color and the width
of its stroke, unless a text of the element was copied. -/
theorem references_resolve (measurer : Measurer Float) (standalone : Bool) (scene : Scene) :
    let root := (document measurer standalone scene).root
    let es := visible scene.elements
    let before := patternsBefore scene.files es
    ∃ attributes patterns background, IsBackground background ∧
      root = laidOut attributes patterns background
        (es.zipIdx.flatMap fun p => (fragment scene.files (before p.2) p.1).nodes) ∧
      List.Forall₂ (IsPatternOf es) (List.range' 1 patterns.length) patterns ∧
      idsOf root.allAttributes = (List.range' 1 patterns.length).map patternId ∧
      (idsOf root.allAttributes).Nodup ∧
      ∀ p ∈ es.zipIdx, ReferencesResolve scene.files patterns (before p.2) p.1 := by
  intro root es before
  obtain ⟨attributes, background, hbackground, hroot⟩ :=
    exists_root_document measurer standalone scene
  change root = laidOut _ (patternsFrom scene.files 0 es) _ (nodesFrom scene.files 0 es) at hroot
  have hconforms : root.Conforms := conforms_document measurer standalone scene
  have hnumbered := forall₂_patternsFrom scene.files 0 es
  have hids : idsOf root.allAttributes =
      (List.range' 1 (patternsFrom scene.files 0 es).length).map patternId := by
    rw [hroot] at hconforms ⊢
    rw [idsOf_laidOut hconforms hbackground (idsOf_nodesFrom scene.files es)]
    exact idsOf_of_forall₂ hnumbered
  refine ⟨attributes, patternsFrom scene.files 0 es, background, hbackground, ?_, hnumbered, hids,
    ?_, fun p hp => referencesResolve_of_mem scene.files hp⟩
  · rw [← nodesFrom_zero_eq_flatMap_zipIdx]
    exact hroot
  · rw [hids]
    exact (List.nodup_range' 1).map patternId_injective

end DiagramScene.Svg
