import Mathlib
import DiagramScene.Proofs.Scene.Materialized
import DiagramScene.Proofs.Svg.Fragments
import DiagramScene.Scene.Pipeline

/-!
# Deleted elements in a drawing

Deleted elements are not drawn and count in no bounds.  But the label of a deleted shape becomes a
text of its own before that, and this text is not deleted.

The drawing of a scene depends on no more than the `looks` of its visible elements
(`document_visible_looks`), and for a list of shapes these are the `drawnLooks` of one shape after
the other, whatever ids have been drawn (`visible_materialize_looks`).  So a list of shapes is drawn
as if its deleted shapes were not there exactly when none of these carries a label with a text:
this is `alike_filter_iff`.
-/

namespace DiagramScene

variable {α σ : Type}

/-! ### Looks -/

/-- The kind of an element, where a text belongs to nothing. -/
def ElementKind.unbound : ElementKind α → ElementKind α
  | text t => text { t with containerId := none }
  | kind => kind

/-- An element without its names, its stamps and its ties to others. -/
def Element.looks (e : Element α) : Element α :=
  { e with
    id := ""
    seed := 0
    version := 0
    versionNonce := 0
    boundElements := none
    updated := 0
    kind := e.kind.unbound }

namespace Element

/-- The geometry of an element is part of its looks. -/
theorem primitive_looks [Scalar α] (e : Element α) : e.looks.primitive = e.primitive := by
  obtain ⟨⟩ := e
  rename_i kind _
  cases kind <;> rfl

end Element

namespace Svg

/-- A fragment without its diagnostics. -/
def Fragment.silent (f : Fragment) : Fragment := { f with diagnostics := [] }

/-- The nodes of an arrowhead depend on the looks of its line. -/
theorem headFragment_looks (e : Element Float) (name : Option String) (tail tip : Point Float) :
    (headFragment e.looks name tail tip).nodes = (headFragment e name tail tip).nodes := by
  unfold headFragment
  cases name with
  | none => rfl
  | some name =>
    dsimp only
    cases Arrowhead.style? name <;> rfl

/-- Two fragments with the same nodes and patterns are the same but for their diagnostics. -/
theorem Fragment.silent_eq {nodes nodes' patterns patterns' : List Node} (hnodes : nodes = nodes')
    (hpatterns : patterns = patterns') (diagnostics diagnostics' : Diagnostics) :
    Fragment.silent ⟨nodes, patterns, diagnostics⟩ =
      Fragment.silent ⟨nodes', patterns', diagnostics'⟩ := by
  rw [hnodes, hpatterns]
  rfl

/-- The outline of an element depends on its looks. -/
theorem outline?_looks [Scalar α] (e : Element α) : outline? e.looks = outline? e := by
  obtain ⟨⟩ := e
  rename_i kind _
  cases kind <;> rfl

/-- The nodes of an outline depend on the looks of its element. -/
theorem outlineNodes_looks (e : Element Float) (fill : String) :
    outlineNodes e.looks fill = outlineNodes e fill := by
  rw [outlineNodes, outline?_looks]
  rfl

/-- The fill of an element depends on its looks. -/
theorem fillOf_looks (e : Element Float) : fillOf e.looks = fillOf e := by
  rw [fillOf, fillOf, Element.looks]

/-- The patterns of an element depend on its looks. -/
theorem patternsOf_looks (e : Element Float) (before : Nat) :
    patternsOf e.looks before = patternsOf e before := by
  have hnode : ∀ crossed n, patternNode e.looks crossed n = patternNode e crossed n :=
    fun _ _ => rfl
  rw [patternsOf, patternsOf, fillOf_looks, hnode, hnode]

/-- The paint of the inside of an element depends on its looks. -/
theorem fillPaint_looks (e : Element Float) (before : Nat) :
    fillPaint e.looks before = fillPaint e before := by
  have hcolor : e.looks.backgroundColor = e.backgroundColor := rfl
  rw [fillPaint, fillPaint, fillOf_looks, hcolor]

/-- The nodes and patterns of a shape depend on its looks. -/
theorem hollowFragment_looks (e : Element Float) (before : Nat) :
    hollowFragment e.looks before = hollowFragment e before := by
  rw [hollowFragment, outlineNodes_looks, patternsOf_looks, hollowFragment]

/-- The nodes and patterns of a line depend on its looks. -/
theorem silent_linearFragment_looks (e : Element Float) (path : LinearPath Float) (mayFill : Bool)
    (before : Nat) :
    (linearFragment e.looks path mayFill before).silent =
      (linearFragment e path mayFill before).silent := by
  have hpoints : finitePoints e.looks path.points = finitePoints e path.points := rfl
  unfold linearFragment
  rw [hpoints]
  dsimp only
  split
  · refine Fragment.silent_eq ?_ (patternsOf_looks e before) _ _
    rw [outlineNodes_looks, headFragment_looks, headFragment_looks, fillPaint_looks]
  · rfl

/-- The nodes and patterns of an image depend on its looks. -/
theorem silent_imageFragment_looks (files : Members) (e : Element Float)
    (picture : Picture Float) :
    (imageFragment files e.looks picture).silent = (imageFragment files e picture).silent := by
  unfold imageFragment
  cases picture.fileId with
  | none => rfl
  | some fileId =>
    dsimp only
    cases dataUrl? files fileId <;> rfl

/-- The nodes and patterns of an element depend on its looks. -/
theorem silent_fragment_looks (files : Members) (before : Nat) (e : Element Float) :
    (fragment files before e.looks).silent = (fragment files before e).silent := by
  have hfilled : filledFragment e.looks before = filledFragment e before := by
    rw [filledFragment, outlineNodes_looks, patternsOf_looks, fillPaint_looks, filledFragment]
  have hkind : e.looks.kind = e.kind.unbound := rfl
  unfold fragment
  rw [hkind]
  cases e.kind with
  | line path => exact silent_linearFragment_looks e path true before
  | arrow path => exact silent_linearFragment_looks e path false before
  | image picture => exact silent_imageFragment_looks files e picture
  | freedraw stroke =>
    simp only [ElementKind.unbound, strokeFragment, hollowFragment_looks]
    rfl
  | frame title =>
    simp only [ElementKind.unbound, frameFragment, hollowFragment_looks]
    rfl
  | magicFrame title =>
    simp only [ElementKind.unbound, frameFragment, hollowFragment_looks]
    rfl
  | rectangle | diamond | ellipse => exact congrArg Fragment.silent hfilled
  | embeddable | iframe => exact congrArg Fragment.silent (hollowFragment_looks e before)
  | text _ | other _ => rfl

/-! ### Scenes that look the same -/

/-- The nodes and patterns of elements depend on their looks. -/
theorem silent_fragments_looks (files : Members) (before : Nat) (es : List (Element Float)) :
    (fragments files before (es.map Element.looks)).map Fragment.silent =
      (fragments files before es).map Fragment.silent := by
  induction es generalizing before with
  | nil => rfl
  | cons e es ih =>
    have hsilent := silent_fragment_looks files before e
    have hpatterns : (fragment files before e.looks).silent.patterns =
        (fragment files before e).silent.patterns := congrArg (·.patterns) hsilent
    dsimp only [Fragment.silent] at hpatterns
    simp only [List.map_cons, fragments, hsilent, hpatterns, ih]

/-- The nodes of fragments are those of the fragments without diagnostics. -/
theorem flatMap_nodes_silent (parts : List Fragment) :
    (parts.map Fragment.silent).flatMap (·.nodes) = parts.flatMap (·.nodes) := by
  rw [List.flatMap_map]
  rfl

/-- The patterns of fragments are those of the fragments without diagnostics. -/
theorem flatMap_patterns_silent (parts : List Fragment) :
    (parts.map Fragment.silent).flatMap (·.patterns) = parts.flatMap (·.patterns) := by
  rw [List.flatMap_map]
  rfl

/-- Visible elements are still visible by their looks. -/
theorem visible_map_looks (es : List (Element Float)) :
    visible ((visible es).map Element.looks) = (visible es).map Element.looks := by
  rw [visible, List.filter_eq_self]
  intro e he
  obtain ⟨e', he', rfl⟩ := List.mem_map.mp he
  exact (List.mem_filter.mp he').2

/-- The bounds of a drawing depend on the looks of the visible elements. -/
theorem contentBounds_visible_looks (measurer : Measurer Float) (es : List (Element Float)) :
    contentBounds measurer ((visible es).map Element.looks) = contentBounds measurer es := by
  have hvisible := visible_map_looks es
  unfold visible at hvisible
  have hboxes : ((visible es).map Element.looks).filterMap (fun e => e.primitive.box? measurer) =
      (visible es).filterMap fun e => e.primitive.box? measurer := by
    rw [List.filterMap_map]
    refine List.filterMap_congr fun e _ => ?_
    exact congrArg (Primitive.box? measurer) e.primitive_looks
  unfold visible at hboxes
  rw [contentBounds, contentBounds, visible, hvisible, hboxes]

/-- The looks of the visible elements are all that the drawing of a scene shows of its elements. -/
theorem document_visible_looks (measurer : Measurer Float) (standalone : Bool) (scene : Scene) :
    let shown := { scene with elements := (visible scene.elements).map Element.looks }
    (document measurer standalone shown).root = (document measurer standalone scene).root ∧
      (document measurer standalone shown).viewport =
        (document measurer standalone scene).viewport := by
  intro shown
  have harea : sceneViewport measurer shown = sceneViewport measurer scene := by
    simp only [sceneViewport, viewport, shown, contentBounds_visible_looks]
  have hvisible : visible shown.elements = (visible scene.elements).map Element.looks :=
    visible_map_looks scene.elements
  have hparts := silent_fragments_looks scene.files 0 (visible scene.elements)
  rw [← hvisible] at hparts
  have hnodes : (fragments shown.files 0 (visible shown.elements)).flatMap (·.nodes) =
      (fragments scene.files 0 (visible scene.elements)).flatMap (·.nodes) := by
    rw [← flatMap_nodes_silent, ← flatMap_nodes_silent (fragments scene.files _ _), ← hparts]
  have hpatterns : (fragments shown.files 0 (visible shown.elements)).flatMap (·.patterns) =
      (fragments scene.files 0 (visible scene.elements)).flatMap (·.patterns) := by
    rw [← flatMap_patterns_silent, ← flatMap_patterns_silent (fragments scene.files _ _), ← hparts]
  refine ⟨?_, harea⟩
  simp only [document, harea, hnodes, hpatterns, shown]

/-! ### What is drawn of a shape -/

/-- The looks of the text that a shape carries, if it carries one. -/
def labelLooks (measurer : Measurer α) [Scalar α] (shape : Element α) : List (Element α) :=
  ((Label.inlineText? shape).map fun text =>
    (Label.textElement measurer [] shape text).looks).toList

/-- The looks of what is drawn of a shape: of the shape, unless it is deleted, and of its text in
any case. -/
def drawnLooks (measurer : Measurer α) [Scalar α] (shape : Element α) : List (Element α) :=
  (if shape.isDeleted then [] else [(Label.bare shape).looks]) ++ labelLooks measurer shape

/-- The first of some elements is visible unless it is deleted. -/
theorem visible_cons (e : Element Float) (es : List (Element Float)) :
    visible (e :: es) = (if e.isDeleted then [] else [e]) ++ visible es := by
  cases h : e.isDeleted <;> simp [visible, h]

/-- Of the block of a shape its looks are drawn, whatever ids the block gets. -/
theorem visible_block_looks (source : IdSource σ) (measurer : Measurer Float)
    (shape : Element Float) (s : σ) :
    (visible (Label.block source measurer [] shape s).1).map Element.looks =
      drawnLooks measurer shape := by
  obtain ⟨id, hnamed, _⟩ := Label.named_eq source shape s
  have htext : Label.text? [] { shape with id := id } = Label.inlineText? shape :=
    Label.text?_nil _
  unfold Label.block drawnLooks labelLooks
  rw [hnamed]
  dsimp only
  rw [htext]
  cases Label.inlineText? shape with
  | none =>
    rw [visible_cons]
    cases hdel : shape.isDeleted <;> simp [visible, hdel, Label.bare, Element.looks]
  | some text =>
    -- The text looks the same without its id and its container; only the shape may be deleted.
    dsimp only
    rw [visible_cons, visible_cons, List.map_append, List.map_append]
    refine congrArg₂ (· ++ ·) ?_ rfl
    cases hdel : shape.isDeleted <;> simp [hdel, Label.bare, Element.attach, Element.looks]

/-- Of a list of shapes the looks are drawn of one shape after the other, whatever ids they get. -/
theorem visible_materialize_looks (source : IdSource σ) (measurer : Measurer Float)
    (shapes : List (Element Float)) (s : σ) :
    (visible (materialize source measurer [] shapes s).1).map Element.looks =
      shapes.flatMap (drawnLooks measurer) := by
  induction shapes generalizing s with
  | nil => rfl
  | cons shape shapes ih =>
    have hblock := visible_block_looks source measurer shape s
    have hrest := ih (Label.block source measurer [] shape s).2
    rw [List.flatMap_cons, ← hblock, ← hrest, ← List.map_append, visible, visible, visible,
      ← List.filter_append]
    rfl

/-- The scene of what is drawn of shapes. -/
def drawnScene (measurer : Measurer Float) (shapes : List (Element Float)) (files : Members)
    (params : OutputParams) : Scene :=
  (Scene.assemble (shapes.flatMap (drawnLooks measurer)) params).withFiles files

/-! ### Texts of deleted shapes -/

/-- The text of a shape, as a list of elements: there is none, or it is an element of its own. -/
theorem labelLooks_cases (measurer : Measurer Float) (shape : Element Float) :
    (Label.trimmedText shape = "" ∧ labelLooks measurer shape = []) ∨
      (Label.trimmedText shape ≠ "" ∧ ∃ e t, labelLooks measurer shape = [e] ∧
        e.kind = .text t ∧ t.text = Label.trimmedText shape) := by
  unfold labelLooks
  rw [Label.inlineText?_eq]
  by_cases h : Label.trimmedText shape = ""
  · refine .inl ⟨h, ?_⟩
    rw [if_neg (not_not_intro h)]
    rfl
  · refine .inr ⟨h, ?_⟩
    rw [if_pos h]
    exact ⟨_, _, rfl, rfl, rfl⟩

/-- A text brings no patterns along. -/
theorem patternsFrom_text (files : Members) (before : Nat) {e : Element Float}
    {t : TextContent Float} (he : e.kind = .text t) : patternsFrom files before [e] = [] := by
  simp only [patternsFrom, fragments, fragment, he, textFragment, List.flatMap_cons,
    List.flatMap_nil, List.append_nil]
  split <;> rfl

/-- A text that is not empty is drawn by some characters at least. -/
theorem length_nodesFrom_text_pos (files : Members) (before : Nat) {e : Element Float}
    {t : TextContent Float} (he : e.kind = .text t) (ht : t.text ≠ "") :
    0 < (charsOfList (nodesFrom files before [e])).length := by
  have hne : t.text.isEmpty = false := by simpa using ht
  simp [nodesFrom, fragments, fragment, he, textFragment, hne, charsOfList_cons,
    Fragment.ofNodes, Node.chars, openingChars]

/-- A deleted shape leaves a text in the drawing. -/
def leavesText (shape : Element Float) : Bool :=
  shape.isDeleted && Label.trimmedText shape != ""

/-- The shapes of a list that are not deleted bring the same patterns along as all shapes, and each
text that a deleted shape leaves takes some characters. -/
theorem drawnLooks_filter (files : Members) (before : Nat) (measurer : Measurer Float)
    (shapes : List (Element Float)) :
    let all := shapes.flatMap (drawnLooks measurer)
    let kept := (shapes.filter fun e => !e.isDeleted).flatMap (drawnLooks measurer)
    patternsFrom files before all = patternsFrom files before kept ∧
      (charsOfList (nodesFrom files before kept)).length + shapes.countP leavesText ≤
        (charsOfList (nodesFrom files before all)).length := by
  -- A text brings no patterns along, so both lists go on with the same number of patterns.
  induction shapes generalizing before with
  | nil => exact ⟨rfl, Nat.le_refl _⟩
  | cons shape shapes ih =>
    dsimp only at ih ⊢
    cases hdel : shape.isDeleted with
    | false =>
      obtain ⟨hpatterns, hnodes⟩ :=
        ih (before + (patternsFrom files before (drawnLooks measurer shape)).length)
      have hleaves : leavesText shape = false := by rw [leavesText, hdel, Bool.false_and]
      rw [List.filter_cons_of_pos (by simp [hdel]), List.flatMap_cons, List.flatMap_cons,
        List.countP_cons_of_neg (by simp [hleaves])]
      simp only [patternsFrom_append, nodesFrom_append, charsOfList_append, List.length_append]
      exact ⟨by rw [hpatterns], by omega⟩
    | true =>
      obtain ⟨hpatterns, hnodes⟩ := ih before
      have hdrawn : drawnLooks measurer shape = labelLooks measurer shape := by
        rw [drawnLooks, hdel]
        rfl
      rw [List.filter_cons_of_neg (by simp [hdel]), List.flatMap_cons, hdrawn, List.countP_cons]
      rcases labelLooks_cases measurer shape with ⟨htext, hnil⟩ | ⟨htext, e, t, hone, he, ht⟩
      · have hleaves : leavesText shape = false := by simp [leavesText, htext]
        rw [hnil, hleaves, List.nil_append]
        exact ⟨hpatterns, hnodes⟩
      · have hleaves : leavesText shape = true := by simp [leavesText, hdel, htext]
        have hpos := length_nodesFrom_text_pos files before he (ht ▸ htext)
        rw [hone, hleaves, patternsFrom_append, nodesFrom_append, patternsFrom_text files before he,
          charsOfList_append, List.length_append]
        refine ⟨hpatterns, ?_⟩
        simp only [List.length_nil, Nat.add_zero, if_true]
        omega

/-! ### The main statement -/

/-- Where two scenes that look alike in all but their elements have drawings with the same
patterns, the same area and the same text, the nodes of their elements have the same text. -/
theorem charsOfList_nodesFrom_eq (measurer : Measurer Float) (standalone : Bool)
    (scene scene' : Scene) (happ : scene.appState = scene'.appState)
    (hpatterns : patternsFrom scene.files 0 (visible scene.elements) =
      patternsFrom scene'.files 0 (visible scene'.elements))
    (harea : (document measurer standalone scene).viewport =
      (document measurer standalone scene').viewport)
    (htext : (document measurer standalone scene).text =
      (document measurer standalone scene').text) :
    charsOfList (nodesFrom scene.files 0 (visible scene.elements)) =
      charsOfList (nodesFrom scene'.files 0 (visible scene'.elements)) := by
  have hview : sceneViewport measurer scene = sceneViewport measurer scene' := harea
  have hchars : (document measurer standalone scene).root.chars =
      (document measurer standalone scene').root.chars := String.ofList_injective htext
  simp only [document, hview, happ] at hchars
  unfold patternsFrom at hpatterns
  rw [hpatterns] at hchars
  -- The header, the patterns and the background stand before the nodes in both texts.
  simp only [Node.chars, charsOfList_append, List.append_assoc, List.append_cancel_left_eq,
    List.cons_append] at hchars
  simpa [nodesFrom] using hchars

/-- What is drawn of shapes is visible. -/
theorem visible_drawnScene (measurer : Measurer Float) (shapes : List (Element Float))
    (files : Members) (params : OutputParams) :
    visible (drawnScene measurer shapes files params).elements =
      shapes.flatMap (drawnLooks measurer) := by
  change visible (shapes.flatMap (drawnLooks measurer)) = _
  rw [visible, List.filter_eq_self]
  intro e he
  obtain ⟨shape, _, hmem⟩ := List.mem_flatMap.mp he
  rcases List.mem_append.mp hmem with h | h
  · cases hdel : shape.isDeleted
    · rw [hdel] at h
      rw [List.mem_singleton.mp h]
      simp [Element.looks, Label.bare, hdel]
    · rw [hdel] at h
      exact absurd h List.not_mem_nil
  · obtain ⟨text, _, rfl⟩ := Option.map_eq_some_iff.mp (Option.mem_toList.mp h)
    rfl

/-- Two drawings show the same: they have the same text and cover the same area. -/
def Document.Alike (d d' : Document) : Prop :=
  d.text = d'.text ∧ d.viewport = d'.viewport

/-- The drawing of the scene of elements. -/
def Document.ofElements (source : IdSource σ) (measurer painter : Measurer Float)
    (standalone : Bool) (elements : List (Element Float)) (files : Members) (params : OutputParams)
    (s : σ) : Document :=
  document painter standalone (Scene.ofElements source measurer elements files params s).1

section Alike

variable (source : IdSource σ) (measurer painter : Measurer Float) (standalone : Bool)
  (elements : List (Element Float)) (files : Members) (params : OutputParams) (s s' : σ)

/-- The drawing of the scene of shapes is that of what is drawn of them. -/
theorem alike_drawnScene :
    (Document.ofElements source measurer painter standalone elements files params s).Alike
      (document painter standalone (drawnScene measurer elements files params)) := by
  let scene := (Scene.ofElements source measurer elements files params s).1
  have hlooks := visible_materialize_looks source measurer elements s
  have hshown : { scene with elements := (visible scene.elements).map Element.looks } =
      drawnScene measurer elements files params :=
    congrArg (fun es => (Scene.assemble es params).withFiles files) hlooks
  obtain ⟨hroot, harea⟩ := document_visible_looks painter standalone scene
  rw [hshown] at hroot harea
  exact ⟨congrArg Node.render hroot.symm, harea.symm⟩

/-- Where no deleted element carries a text, nothing more is drawn of all elements than of those
that are not deleted. -/
theorem flatMap_drawnLooks_filter
    (h : ∀ e ∈ elements, e.isDeleted = true → Label.trimmedText e = "") :
    elements.flatMap (drawnLooks measurer) =
      (elements.filter fun e => !e.isDeleted).flatMap (drawnLooks measurer) := by
  induction elements with
  | nil => rfl
  | cons e es ih =>
    have hrest := ih fun e he => h e (List.mem_cons_of_mem _ he)
    cases hdel : e.isDeleted with
    | false =>
      rw [List.filter_cons_of_pos (by simp [hdel]), List.flatMap_cons, List.flatMap_cons, hrest]
    | true =>
      rw [List.filter_cons_of_neg (by simp [hdel]), List.flatMap_cons, hrest, drawnLooks, hdel]
      rcases labelLooks_cases measurer e with ⟨_, hnil⟩ | ⟨hne, _⟩
      · rw [hnil]
        rfl
      · exact absurd (h e List.mem_cons_self hdel) hne

/-- Where the drawings of all elements and of those that are not deleted show the same, no deleted
element carries a text. -/
theorem trimmedText_eq_empty_of_alike
    (h : (Document.ofElements source measurer painter standalone elements files params s).Alike
      (Document.ofElements source measurer painter standalone
        (elements.filter fun e => !e.isDeleted) files params s')) :
    ∀ e ∈ elements, e.isDeleted = true → Label.trimmedText e = "" := by
  obtain ⟨htext, harea⟩ := h
  obtain ⟨hall, hview⟩ :=
    alike_drawnScene source measurer painter standalone elements files params s
  obtain ⟨hkept, hview'⟩ := alike_drawnScene source measurer painter standalone
    (elements.filter fun e => !e.isDeleted) files params s'
  obtain ⟨hpatterns, hlength⟩ := drawnLooks_filter files 0 measurer elements
  rw [← visible_drawnScene measurer elements files params,
    ← visible_drawnScene measurer (elements.filter _) files params] at hpatterns hlength
  have hnodes := charsOfList_nodesFrom_eq painter standalone
    (drawnScene measurer elements files params)
    (drawnScene measurer (elements.filter fun e => !e.isDeleted) files params) rfl hpatterns
    (hview.symm.trans (harea.trans hview')) (hall.symm.trans (htext.trans hkept))
  have hcount : elements.countP leavesText = 0 := by
    have hlengths := congrArg List.length hnodes
    change (charsOfList (nodesFrom files 0 _)).length = (charsOfList (nodesFrom files 0 _)).length
      at hlengths
    omega
  intro e he hdel
  simpa [leavesText, hdel] using List.countP_eq_zero.mp hcount e he

/-- All elements are drawn as those that are not deleted, with the same text and in the same area,
if and only if no deleted element carries a text. -/
theorem alike_filter_iff :
    (Document.ofElements source measurer painter standalone elements files params s).Alike
        (Document.ofElements source measurer painter standalone
          (elements.filter fun e => !e.isDeleted) files params s') ↔
      ∀ e ∈ elements, e.isDeleted = true → Label.trimmedText e = "" := by
  constructor
  · exact trimmedText_eq_empty_of_alike source measurer painter standalone elements files params s
      s'
  · intro h
    obtain ⟨hall, hview⟩ :=
      alike_drawnScene source measurer painter standalone elements files params s
    obtain ⟨hkept, hview'⟩ := alike_drawnScene source measurer painter standalone
      (elements.filter fun e => !e.isDeleted) files params s'
    rw [drawnScene, flatMap_drawnLooks_filter measurer elements h] at hall hview
    exact ⟨hall.trans hkept.symm, hview.trans hview'.symm⟩

end Alike

/-! ### A deleted shape with a text -/

/-- A shape that is there. -/
def keptBox : Element Float :=
  { Element.ofKind .rectangle with id := "a", width := 100.0, height := 50.0 }

/-- A deleted shape that carries a text. -/
def goneBox : Element Float :=
  { Element.ofKind .rectangle with
    id := "b"
    x := 300.0
    width := 100.0
    height := 50.0
    isDeleted := true
    label := some { InlineLabel.empty with text := "gone" } }

/-- The text of the deleted shape shows beside the shape that is there. -/
theorem not_alike_goneBox :
    ¬ (Document.ofElements letterSource Measurer.default Measurer.default true [keptBox, goneBox] []
        OutputParams.empty 0).Alike
      (Document.ofElements letterSource Measurer.default Measurer.default true
        ([keptBox, goneBox].filter fun e => !e.isDeleted) [] OutputParams.empty 0) := by
  intro h
  have htext := trimmedText_eq_empty_of_alike _ _ _ _ _ _ _ _ _ h goneBox (by simp) rfl
  exact absurd htext (by decide)

end Svg

end DiagramScene
