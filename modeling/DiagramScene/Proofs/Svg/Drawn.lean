import Mathlib
import DiagramScene.Proofs.Svg.Fragments

/-!
# Drawn or reported

An element that is not deleted shows in the drawing, or it is skipped and a diagnostic says so.
`Skipped` lists the reasons for which an element is skipped, each with its diagnostic, and `IsBlank`
the ways in which an element has nothing to show: a text without characters and a freehand stroke
without points.

The main statement is `drawn_or_reported`: the body of a drawing is what its elements contribute,
one after the other, and an element contributes nothing exactly if it is blank or skipped.  There is
one diagnostic for each element that is skipped and one for each arrowhead that is left out, all of
them name the element, and there are no others.
-/

namespace DiagramScene

namespace Diagnostic

/-- The id of the element that a diagnostic is about. -/
def subject? : Diagnostic → Option String
  | unsupportedType id _ | tooFewPoints _ id | unsupportedArrowhead _ id | imageWithoutFile id
  | missingFile id _ => some id
  | unsupportedBackground _ | note _ => none

/-- The message of a diagnostic names an element by its id. -/
def Names (r : Diagnostic) (id : String) : Prop :=
  ("`" ++ id ++ "`").toList <:+: r.message.toList

/-- A message names the id that stands in it between quotation marks. -/
theorem names_of_message {r : Diagnostic} {id : String} (first last rest : String)
    (h : r.message = first ++ id ++ last ++ rest) (hfirst : "`".toList <:+ first.toList)
    (hlast : "`".toList <+: last.toList) : r.Names id := by
  obtain ⟨before, hbefore⟩ := hfirst
  obtain ⟨after, hafter⟩ := hlast
  refine ⟨before, after ++ rest.toList, ?_⟩
  simp only [h, String.toList_append, ← hbefore, ← hafter, List.append_assoc]

/-- A diagnostic about an element names it. -/
theorem names_of_subject? {r : Diagnostic} {id : String} (h : r.subject? = some id) :
    r.Names id := by
  cases r with
  | unsupportedType id' kind =>
    obtain rfl : id' = id := Option.some.inj h
    apply names_of_message "skipped element `" "` of unsupported type `" (kind ++ "`")
    · rw [← String.append_assoc]
      rfl
    · exact ⟨"skipped element ".toList, rfl⟩
    · exact ⟨" of unsupported type `".toList, rfl⟩
  | tooFewPoints kind id' =>
    obtain rfl : id' = id := Option.some.inj h
    apply names_of_message ("skipped " ++ kind ++ " `") "` with fewer than two points" ""
      String.append_empty.symm
    · rw [String.toList_append]
      exact List.suffix_append_of_suffix ⟨" ".toList, rfl⟩
    · exact ⟨" with fewer than two points".toList, rfl⟩
  | unsupportedArrowhead head id' =>
    obtain rfl : id' = id := Option.some.inj h
    apply names_of_message ("skipped unsupported arrowhead `" ++ head ++ "` on `") "`" ""
      String.append_empty.symm
    · rw [String.toList_append]
      exact List.suffix_append_of_suffix ⟨"` on ".toList, rfl⟩
    · exact List.prefix_rfl
  | imageWithoutFile id' =>
    obtain rfl : id' = id := Option.some.inj h
    apply names_of_message "skipped image `" "` without a fileId" "" String.append_empty.symm
    · exact ⟨"skipped image ".toList, rfl⟩
    · exact ⟨" without a fileId".toList, rfl⟩
  | missingFile id' fileId =>
    obtain rfl : id' = id := Option.some.inj h
    apply names_of_message "skipped image `" "`: file `"
      (fileId ++ "` is missing or has no data URL")
    · rw [← String.append_assoc]
      rfl
    · exact ⟨"skipped image ".toList, rfl⟩
    · exact ⟨": file `".toList, rfl⟩
  | unsupportedBackground color => cases h
  | note message => cases h

end Diagnostic

namespace Svg

/-! ### Elements that do not show -/

/-- Both coordinates of a point are finite. -/
def isFinitePoint (p : Float × Float) : Bool := p.1.isFinite && p.2.isFinite

/-- A file is there and has a URL that holds its data. -/
def HasData (files : Members) (fileId : String) : Prop :=
  ∃ file url, files.get? fileId = some file ∧ file.get? "dataURL" = some (.str url) ∧
    "data:".toList <+: url.toList

/-- An element has nothing to show. -/
inductive IsBlank (e : Element Float) : Prop
  | text {t : TextContent Float} (kind : e.kind = .text t) (empty : t.text = "")
  | freedraw {stroke : Stroke Float} (kind : e.kind = .freedraw stroke)
      (noPoint : ∀ p ∈ stroke.points, isFinitePoint p = false)

/-- An element cannot be drawn, and what is said about that. -/
inductive Skipped (files : Members) (e : Element Float) : Diagnostic → Prop
  | line {path : LinearPath Float} (kind : e.kind = .line path ∨ e.kind = .arrow path)
      (few : path.points.countP isFinitePoint < 2) : Skipped files e (.tooFewPoints e.typeName e.id)
  | imageWithoutFile {picture : Picture Float} (kind : e.kind = .image picture)
      (noFile : picture.fileId = none) : Skipped files e (.imageWithoutFile e.id)
  | imageWithoutData {picture : Picture Float} {fileId : String} (kind : e.kind = .image picture)
      (file : picture.fileId = some fileId) (noData : ¬ HasData files fileId) :
      Skipped files e (.missingFile e.id fileId)
  | unknown {name : String} (kind : e.kind = .other name) :
      Skipped files e (.unsupportedType e.id name)

/-- The names of the arrowheads that can be drawn. -/
def supportedHeads : List String :=
  ["arrow", "bar", "dot", "circle", "circle_outline", "triangle", "triangle_outline", "diamond",
    "diamond_outline"]

/-- The arrowheads of a line that cannot be drawn, the one at its start first. -/
def unsupportedHeads (e : Element Float) : List String :=
  match e.kind with
  | .line path | .arrow path =>
    (path.startArrowhead.toList ++ path.endArrowhead.toList).filter (· ∉ supportedHeads)
  | _ => []

/-! ### Points and files -/

/-- The points of a path that are drawn are those that are finite. -/
theorem length_finitePoints (e : Element Float) (points : List (Float × Float)) :
    (finitePoints e points).length = points.countP isFinitePoint := by
  rw [finitePoints, List.length_map, List.countP_eq_length_filter]
  rfl

/-- A file has a URL of its own exactly if it has data. -/
theorem isSome_dataUrl?_iff {files : Members} {fileId : String} :
    (dataUrl? files fileId).isSome = true ↔ HasData files fileId := by
  have hstarts (url : String) : "data:".toList.isPrefixOf url.toList = true ↔
      "data:".toList <+: url.toList := List.isPrefixOf_iff_prefix
  constructor
  · intro h
    obtain ⟨url, hurl⟩ := Option.isSome_iff_exists.mp h
    obtain ⟨file, hfile, hurl⟩ := Option.bind_eq_some_iff.mp hurl
    obtain ⟨value, hvalue, hurl⟩ := Option.bind_eq_some_iff.mp hurl
    obtain ⟨text, htext, hurl⟩ := Option.bind_eq_some_iff.mp hurl
    cases value with
    | str s =>
      obtain rfl : s = text := Option.some.inj htext
      refine ⟨file, s, hfile, hvalue, (hstarts s).mp ?_⟩
      by_contra hdata
      rw [if_neg hdata] at hurl
      cases hurl
    | _ => cases htext
  · rintro ⟨file, url, hfile, hvalue, hdata⟩
    have hurl : dataUrl? files fileId = some url := by
      rw [dataUrl?, hfile, Option.bind_eq_bind, Option.bind_some, hvalue]
      exact if_pos ((hstarts url).mpr hdata)
    rw [hurl]
    rfl

/-! ### Texts of nodes -/

/-- Nodes have a text if one of them has. -/
theorem charsOfList_ne_nil {ns : List Node} {n : Node} (hmem : n ∈ ns) (hn : n.chars ≠ []) :
    charsOfList ns ≠ [] := by
  obtain ⟨as, bs, rfl⟩ := List.append_of_mem hmem
  rw [charsOfList_append, charsOfList_cons]
  exact List.append_ne_nil_of_right_ne_nil _ (List.append_ne_nil_of_left_ne_nil hn _)

/-- The node of an outline has a text. -/
theorem chars_outlineNode_ne_nil (outline : Outline Float) (fill : String) (e : Element Float) :
    (outlineNode outline fill e).chars ≠ [] := by
  have hleaf : ∃ name attributes, outlineNode outline fill e = .leaf name attributes := by
    cases outline with
    | rect | polygon | ellipse | path => exact ⟨_, _, rfl⟩
  obtain ⟨name, attributes, hnode⟩ := hleaf
  rw [hnode, Node.chars]
  exact List.cons_ne_nil _ _

/-- An element with an outline shows, whatever is drawn beside it. -/
theorem charsOfList_outlineNodes_ne_nil {e : Element Float} {outline : Outline Float}
    (h : outline? e = some outline) (fill : String) (others : List Node) :
    charsOfList (outlineNodes e fill ++ others) ≠ [] := by
  have hmem : outlineNode outline fill e ∈ outlineNodes e fill ++ others := by
    rw [outlineNodes, h]
    exact List.mem_append_left others List.mem_cons_self
  exact charsOfList_ne_nil hmem (chars_outlineNode_ne_nil outline fill e)

/-! ### Skipped elements -/

/-- What is said about an element that is skipped is about this element. -/
theorem Skipped.subject?_eq {files : Members} {e : Element Float} {r : Diagnostic}
    (h : Skipped files e r) : r.subject? = some e.id := by
  cases h <;> rfl

/-- An element that is skipped contributes nothing but a diagnostic. -/
theorem Skipped.fragment_eq {files : Members} {e : Element Float} {r : Diagnostic}
    (h : Skipped files e r) (before : Nat) : fragment files before e = .skipped r := by
  cases h with
  | line kind few =>
    rw [← length_finitePoints e] at few
    unfold fragment
    rcases kind with kind | kind
    · rw [kind]
      exact linearFragment_of_lt few true before
    · rw [kind]
      exact linearFragment_of_lt few false before
  | imageWithoutFile kind noFile =>
    unfold fragment
    rw [kind]
    dsimp only [imageFragment]
    rw [noFile]
  | imageWithoutData kind file noData =>
    have hurl : dataUrl? files _ = none :=
      Option.not_isSome_iff_eq_none.mp (mt isSome_dataUrl?_iff.mp noData)
    unfold fragment
    rw [kind]
    dsimp only [imageFragment]
    rw [file]
    dsimp only
    rw [hurl]
  | unknown kind =>
    unfold fragment
    rw [kind]

/-- An element that has nothing to show contributes nothing. -/
theorem IsBlank.fragment_eq {e : Element Float} (h : IsBlank e) (files : Members) (before : Nat) :
    fragment files before e = .ofNodes [] := by
  cases h with
  | text kind empty =>
    unfold fragment
    rw [kind]
    dsimp only [textFragment]
    rw [empty]
    rfl
  | @freedraw stroke kind noPoint =>
    have hpoints : (finitePoints e stroke.points).length = 0 := by
      rw [length_finitePoints, List.countP_eq_zero]
      intro p hp
      rw [noPoint p hp]
      exact Bool.false_ne_true
    unfold fragment
    rw [kind]
    dsimp only [strokeFragment]
    rw [List.length_eq_zero_iff.mp hpoints]
    rfl

/-- Only a line has heads. -/
theorem IsBlank.unsupportedHeads_eq_nil {e : Element Float} (h : IsBlank e) :
    unsupportedHeads e = [] := by
  cases h with
  | text kind _ => rw [unsupportedHeads, kind]
  | freedraw kind _ => rw [unsupportedHeads, kind]

/-! ### Elements that show -/

/-- The diagnostics about arrowheads that cannot be drawn. -/
def headDiagnostics (e : Element Float) : Diagnostics :=
  (unsupportedHeads e).map fun head => .unsupportedArrowhead head e.id

/-- An arrowhead has no style exactly if it cannot be drawn. -/
theorem style?_eq_none_iff {name : String} :
    Arrowhead.style? name = none ↔ name ∉ supportedHeads := by
  unfold Arrowhead.style? supportedHeads
  split <;> simp_all

/-- The diagnostics of an arrowhead: one, if it cannot be drawn. -/
theorem diagnostics_headFragment (e : Element Float) (name : Option String)
    (tail tip : Point Float) :
    (headFragment e name tail tip).diagnostics =
      (name.toList.filter (· ∉ supportedHeads)).map fun head =>
        .unsupportedArrowhead head e.id := by
  cases name with
  | none => rfl
  | some name =>
    unfold headFragment
    dsimp only
    cases hstyle : Arrowhead.style? name with
    | none =>
      have hname : name ∉ supportedHeads := style?_eq_none_iff.mp hstyle
      rw [Option.toList_some, List.filter_cons_of_pos (by simpa using hname)]
      rfl
    | some style =>
      have hname : name ∈ supportedHeads := by
        by_contra h
        rw [style?_eq_none_iff.mpr h] at hstyle
        cases hstyle
      rw [Option.toList_some, List.filter_cons_of_neg (by simpa using hname)]
      rfl

/-- A fragment shows, and leaves out nothing but arrowheads. -/
structure Fragment.Shows (f : Fragment) (e : Element Float) : Prop where
  chars_ne_nil : charsOfList f.nodes ≠ []
  diagnostics_eq : f.diagnostics = headDiagnostics e

/-- A line with two points at least shows. -/
theorem shows_linearFragment {e : Element Float} {path : LinearPath Float}
    (kind : e.kind = .line path ∨ e.kind = .arrow path)
    (hpoints : 2 ≤ path.points.countP isFinitePoint) (mayFill : Bool) (before : Nat) :
    (linearFragment e path mayFill before).Shows e := by
  rw [← length_finitePoints e] at hpoints
  obtain ⟨fill, start, finish, -, ⟨tail, tip, rfl⟩, ⟨tail', tip', rfl⟩, hfragment⟩ :=
    exists_linearFragment hpoints mayFill before
  have houtline : ∃ outline, outline? e = some outline := by
    rcases kind with kind | kind <;>
      · rw [outline?, kind]
        exact ⟨_, rfl⟩
  have hheads : unsupportedHeads e =
      (path.startArrowhead.toList ++ path.endArrowhead.toList).filter (· ∉ supportedHeads) := by
    rcases kind with kind | kind <;> rw [unsupportedHeads, kind]
  rw [hfragment]
  obtain ⟨outline, houtline⟩ := houtline
  constructor
  · dsimp only
    rw [List.append_assoc]
    exact charsOfList_outlineNodes_ne_nil houtline fill _
  · rw [headDiagnostics, hheads, List.filter_append, List.map_append, diagnostics_headFragment,
      diagnostics_headFragment]

/-- A shape shows its outline, whatever is drawn beside it. -/
theorem shows_of_outline {e : Element Float} {outline : Outline Float}
    (houtline : outline? e = some outline) (hheads : unsupportedHeads e = []) (fill : String)
    (others patterns : List Node) :
    Fragment.Shows ⟨outlineNodes e fill ++ others, patterns, []⟩ e where
  chars_ne_nil := charsOfList_outlineNodes_ne_nil houtline fill others
  diagnostics_eq := by rw [headDiagnostics, hheads, List.map_nil]

/-- A tag around nodes shows. -/
theorem shows_branch {e : Element Float} (hheads : unsupportedHeads e = []) (name : String)
    (attributes : List Attribute) (children : List Node) :
    (Fragment.ofNodes [.branch name attributes children]).Shows e where
  chars_ne_nil := by
    apply charsOfList_ne_nil List.mem_cons_self
    rw [Node.chars]
    exact List.cons_ne_nil _ _
  diagnostics_eq := by
    rw [headDiagnostics, hheads]
    rfl

/-- An element that has something to show and is not skipped shows. -/
theorem shows_fragment {files : Members} {e : Element Float} (hblank : ¬ IsBlank e)
    (hskipped : ∀ r, ¬ Skipped files e r) (before : Nat) : (fragment files before e).Shows e := by
  have hshape (outline : Outline Float) (houtline : outline? e = some outline)
      (hheads : unsupportedHeads e = []) (fill : String) (patterns : List Node) :
      Fragment.Shows ⟨outlineNodes e fill, patterns, []⟩ e := by
    have hshows := shows_of_outline houtline hheads fill [] patterns
    rwa [List.append_nil] at hshows
  unfold fragment
  cases kind : e.kind with
  | rectangle | diamond | ellipse | embeddable | iframe =>
    apply hshape
    · rw [outline?, kind]
    · rw [unsupportedHeads, kind]
  | line path =>
    apply shows_linearFragment (.inl kind)
    exact not_lt.mp fun few => hskipped _ (.line (.inl kind) few)
  | arrow path =>
    apply shows_linearFragment (.inr kind)
    exact not_lt.mp fun few => hskipped _ (.line (.inr kind) few)
  | freedraw stroke =>
    have hpoints : (finitePoints e stroke.points).isEmpty = false := by
      by_contra hempty
      rw [Bool.not_eq_false, List.isEmpty_iff_length_eq_zero, length_finitePoints,
        List.countP_eq_zero] at hempty
      exact hblank (.freedraw kind fun p hp => Bool.eq_false_iff.mpr (hempty p hp))
    dsimp only [strokeFragment]
    rw [hpoints]
    apply hshape
    · rw [outline?, kind]
    · rw [unsupportedHeads, kind]
  | text t =>
    have htext : t.text.isEmpty = false := by
      by_contra hempty
      rw [Bool.not_eq_false, String.isEmpty_iff] at hempty
      exact hblank (.text kind hempty)
    dsimp only [textFragment]
    rw [htext]
    apply shows_branch
    rw [unsupportedHeads, kind]
  | image picture =>
    dsimp only [imageFragment]
    cases hfile : picture.fileId with
    | none => exact absurd (.imageWithoutFile kind hfile) (hskipped _)
    | some fileId =>
      dsimp only
      cases hurl : dataUrl? files fileId with
      | none =>
        have hdata : ¬ HasData files fileId := by
          rw [← isSome_dataUrl?_iff, hurl]
          exact Bool.false_ne_true
        exact absurd (.imageWithoutData kind hfile hdata) (hskipped _)
      | some url =>
        apply shows_branch
        rw [unsupportedHeads, kind]
  | frame title | magicFrame title =>
    apply shows_of_outline
    · rw [outline?, kind]
    · rw [unsupportedHeads, kind]
  | other name => exact absurd (.unknown kind) (hskipped _)

/-! ### Drawings -/

/-- What an element contributes to the text of a drawing that has so many patterns before it. -/
def fragmentChars (files : Members) (before : Nat) (e : Element Float) : List Char :=
  charsOfList (fragment files before e).nodes

/-- An element is drawn or reported: it contributes nothing only if there is nothing to show or a
diagnostic says that it is skipped, and no diagnostic is about something that is drawn. -/
structure DrawnOrReported (files : Members) (before : Nat) (e : Element Float) : Prop where
  fragmentChars_eq_nil_iff :
    fragmentChars files before e = [] ↔ IsBlank e ∨ ∃ r, Skipped files e r
  diagnostics_of_skipped :
    ∀ r, Skipped files e r → (fragment files before e).diagnostics = [r]
  diagnostics_of_drawn :
    (∀ r, ¬ Skipped files e r) → (fragment files before e).diagnostics = headDiagnostics e
  names : ∀ r ∈ (fragment files before e).diagnostics, r.Names e.id

/-- What is said about arrowheads is about the element that has them. -/
theorem subject?_of_mem_headDiagnostics {e : Element Float} {r : Diagnostic}
    (h : r ∈ headDiagnostics e) : r.subject? = some e.id := by
  obtain ⟨head, -, rfl⟩ := List.mem_map.mp h
  rfl

/-- Each element is drawn or reported. -/
theorem drawnOrReported_fragment (files : Members) (before : Nat) (e : Element Float) :
    DrawnOrReported files before e := by
  have hdrawn (hskipped : ∀ r, ¬ Skipped files e r) :
      (fragment files before e).diagnostics = headDiagnostics e := by
    by_cases hblank : IsBlank e
    · rw [hblank.fragment_eq, headDiagnostics, hblank.unsupportedHeads_eq_nil]
      rfl
    · exact (shows_fragment hblank hskipped before).diagnostics_eq
  have hreported (r : Diagnostic) (h : Skipped files e r) :
      (fragment files before e).diagnostics = [r] := by
    rw [h.fragment_eq before]
    rfl
  refine ⟨⟨fun hempty => ?_, ?_⟩, hreported, hdrawn, fun r hr => ?_⟩
  · -- An element without text is blank or skipped, since all others show.
    by_contra hneither
    rw [not_or, not_exists] at hneither
    exact (shows_fragment hneither.1 hneither.2 before).chars_ne_nil hempty
  · rintro (hblank | ⟨r, hskipped⟩)
    · rw [fragmentChars, hblank.fragment_eq]
      exact charsOfList_nil
    · rw [fragmentChars, hskipped.fragment_eq]
      exact charsOfList_nil
  · apply Diagnostic.names_of_subject?
    by_cases hskipped : ∃ r, Skipped files e r
    · obtain ⟨r', hskipped⟩ := hskipped
      rw [hreported r' hskipped, List.mem_singleton] at hr
      rw [hr]
      exact hskipped.subject?_eq
    · rw [hdrawn (not_exists.mp hskipped)] at hr
      exact subject?_of_mem_headDiagnostics hr

/-- The text of nodes that come from parts is the text of one part after the other. -/
theorem charsOfList_flatMap {β : Type} (f : β → List Node) (l : List β) :
    charsOfList (l.flatMap f) = l.flatMap fun x => charsOfList (f x) := by
  induction l with
  | nil => exact charsOfList_nil
  | cons x l ih => rw [List.flatMap_cons, List.flatMap_cons, charsOfList_append, ih]

/-- Every element that is not deleted is drawn or reported.  The body of a drawing is what its
elements contribute, in their order, where an element contributes the same whatever the others are
as long as they bring the same number of patterns before it.  The diagnostics are those of the
elements, in the same order. -/
theorem drawn_or_reported (measurer : Measurer Float) (standalone : Bool) (scene : Scene) :
    let d := document measurer standalone scene
    let es := visible scene.elements
    let before := patternsBefore scene.files es
    (∃ attributes background, IsBackground background ∧
      d.text.toList = openingChars "svg" attributes ++ '>' ::
        (charsOfList (definitions (patternsFrom scene.files 0 es) ++ background) ++
          es.zipIdx.flatMap (fun p => fragmentChars scene.files (before p.2) p.1)) ++
        closingChars "svg") ∧
    d.diagnostics =
      es.zipIdx.flatMap (fun p => (fragment scene.files (before p.2) p.1).diagnostics) ∧
    ∀ e n, DrawnOrReported scene.files n e := by
  intro d es before
  have hbody : charsOfList (nodesFrom scene.files 0 es) =
      es.zipIdx.flatMap fun p => fragmentChars scene.files (before p.2) p.1 := by
    rw [nodesFrom_zero_eq_flatMap_zipIdx, charsOfList_flatMap]
    rfl
  refine ⟨?_, ?_, fun e n => drawnOrReported_fragment scene.files n e⟩
  · obtain ⟨attributes, background, hbackground, hroot⟩ :=
      exists_root_document measurer standalone scene
    refine ⟨attributes, background, hbackground, ?_⟩
    have htext : d.text.toList = d.root.chars := String.toList_ofList
    rw [htext, hroot, laidOut, Node.chars, charsOfList_append, hbody]
  · change (fragments scene.files 0 es).flatMap (·.diagnostics) = _
    rw [fragments_zero_eq_map_zipIdx, List.flatMap_map]

end Svg

end DiagramScene
