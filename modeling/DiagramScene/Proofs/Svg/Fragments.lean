import Mathlib
import DiagramScene.Svg.Writer

/-!
# The fragments of a drawing

The elements of a scene contribute one fragment each, and all that a fragment needs to know of the
elements before it is how many patterns they bring along (`fragments_eq_map_zipIdx`).  The drawing
is laid out with the patterns of its fragments in front, and their nodes behind the background
(`exists_root_document`).
-/

namespace DiagramScene.Svg

/-- The patterns of elements, where so many patterns come before. -/
def patternsFrom (files : Members) (before : Nat) (es : List (Element Float)) : List Node :=
  (fragments files before es).flatMap (·.patterns)

/-- The nodes of elements, where so many patterns come before. -/
def nodesFrom (files : Members) (before : Nat) (es : List (Element Float)) : List Node :=
  (fragments files before es).flatMap (·.nodes)

/-- The patterns of a first element and those of the others. -/
theorem patternsFrom_cons (files : Members) (before : Nat) (e : Element Float)
    (es : List (Element Float)) :
    patternsFrom files before (e :: es) = (fragment files before e).patterns ++
      patternsFrom files (before + (fragment files before e).patterns.length) es :=
  List.flatMap_cons

/-- The fragments of elements that come behind others. -/
theorem fragments_append (files : Members) (before : Nat) (as bs : List (Element Float)) :
    fragments files before (as ++ bs) =
      fragments files before as ++
        fragments files (before + (patternsFrom files before as).length) bs := by
  induction as generalizing before with
  | nil => rfl
  | cons a as ih =>
    rw [List.cons_append, fragments, fragments, ih, List.cons_append, patternsFrom_cons,
      List.length_append, Nat.add_assoc]

/-- The patterns of elements that come behind others. -/
theorem patternsFrom_append (files : Members) (before : Nat) (as bs : List (Element Float)) :
    patternsFrom files before (as ++ bs) =
      patternsFrom files before as ++
        patternsFrom files (before + (patternsFrom files before as).length) bs := by
  rw [patternsFrom, fragments_append, List.flatMap_append]
  rfl

/-- The nodes of elements that come behind others. -/
theorem nodesFrom_append (files : Members) (before : Nat) (as bs : List (Element Float)) :
    nodesFrom files before (as ++ bs) =
      nodesFrom files before as ++
        nodesFrom files (before + (patternsFrom files before as).length) bs := by
  rw [nodesFrom, fragments_append, List.flatMap_append]
  rfl

/-- The number of patterns that the first elements of a list bring along. -/
def patternsBefore (files : Members) (es : List (Element Float)) (count : Nat) : Nat :=
  (patternsFrom files 0 (es.take count)).length

/-- Each element has its own fragment, which depends on the number of patterns before it. -/
theorem fragments_eq_map_zipIdx (files : Members) (before : Nat) (es : List (Element Float)) :
    fragments files before es = es.zipIdx.map fun p =>
      fragment files (before + (patternsFrom files before (es.take p.2)).length) p.1 := by
  induction es generalizing before with
  | nil => rfl
  | cons e es ih =>
    rw [fragments, ih, List.zipIdx_cons', List.map_cons, List.map_map]
    refine congrArg₂ List.cons rfl (List.map_congr_left fun p _ => ?_)
    have htake : (patternsFrom files before ((e :: es).take (p.2 + 1))).length =
        (patternsFrom files before (e :: es.take p.2)).length := rfl
    rw [Function.comp_apply, Prod.map_snd, Prod.map_fst, htake, patternsFrom_cons,
      List.length_append, Nat.add_assoc]
    rfl

/-- The fragments of a drawing, each with its element and the number of patterns before it. -/
theorem fragments_zero_eq_map_zipIdx (files : Members) (es : List (Element Float)) :
    fragments files 0 es =
      es.zipIdx.map fun p => fragment files (patternsBefore files es p.2) p.1 := by
  rw [fragments_eq_map_zipIdx]
  refine List.map_congr_left fun p _ => ?_
  rw [Nat.zero_add, patternsBefore]

/-- The body of a drawing, fragment by fragment. -/
theorem nodesFrom_zero_eq_flatMap_zipIdx (files : Members) (es : List (Element Float)) :
    nodesFrom files 0 es =
      es.zipIdx.flatMap fun p => (fragment files (patternsBefore files es p.2) p.1).nodes := by
  rw [nodesFrom, fragments_zero_eq_map_zipIdx, List.flatMap_map]

/-- The patterns of an element stand behind those of the elements before it. -/
theorem exists_patternsFrom_zero_eq (files : Members) {es : List (Element Float)}
    {p : Element Float × Nat} (h : p ∈ es.zipIdx) :
    ∃ later, patternsFrom files 0 es = patternsFrom files 0 (es.take p.2) ++
      ((fragment files (patternsBefore files es p.2) p.1).patterns ++ later) := by
  have hp : es[p.2]? = some p.1 := List.mem_zipIdx_iff_getElem?.mp h
  obtain ⟨hlt, hget⟩ := List.getElem?_eq_some_iff.mp hp
  have hsplit : es = es.take p.2 ++ p.1 :: es.drop (p.2 + 1) := by
    rw [← hget, ← List.drop_eq_getElem_cons hlt, List.take_append_drop]
  have hpatterns := patternsFrom_append files 0 (es.take p.2) (p.1 :: es.drop (p.2 + 1))
  rw [← hsplit, Nat.zero_add] at hpatterns
  exact ⟨_, hpatterns⟩

/-! ### The layout of a drawing -/

/-- The patterns of a drawing in one place, if there are any. -/
def definitions (patterns : List Node) : List Node :=
  if patterns.isEmpty then [] else [.branch "defs" [] patterns]

/-- A drawing with its patterns, what is painted behind it, and its body. -/
def laidOut (attributes : List Attribute) (patterns background body : List Node) : Node :=
  .branch "svg" attributes (definitions patterns ++ background ++ body)

/-- What is painted behind a drawing: nothing, or a rectangle. -/
def IsBackground (background : List Node) : Prop :=
  background = [] ∨ ∃ attributes, background = [.leaf "rect" attributes]

/-- A drawing is laid out with the patterns of its elements and, as its body, their nodes. -/
theorem exists_root_document (measurer : Measurer Float) (standalone : Bool) (scene : Scene) :
    ∃ attributes background, IsBackground background ∧
      (document measurer standalone scene).root =
        laidOut attributes (patternsFrom scene.files 0 (visible scene.elements)) background
          (nodesFrom scene.files 0 (visible scene.elements)) := by
  refine ⟨_, _, ?_, rfl⟩
  split
  · exact .inr ⟨_, rfl⟩
  · exact .inl rfl

/-! ### Lines -/

/-- A list of two entries at least has two first ones and, from behind, two last ones. -/
theorem exists_ends {β : Type} {l : List β} (h : 2 ≤ l.length) :
    ∃ p q r s front back, l = p :: q :: back ∧ l.reverse = r :: s :: front := by
  have hfront {l : List β} (h : 2 ≤ l.length) : ∃ p q back, l = p :: q :: back := by
    match l, h with
    | p :: q :: back, _ => exact ⟨p, q, back, rfl⟩
  obtain ⟨p, q, back, hl⟩ := hfront h
  obtain ⟨r, s, front, hreverse⟩ := hfront (l := l.reverse) (by rwa [List.length_reverse])
  exact ⟨p, q, r, s, front, back, hl, hreverse⟩

/-- A line with too few points is skipped. -/
theorem linearFragment_of_lt {e : Element Float} {path : LinearPath Float}
    (h : (finitePoints e path.points).length < 2) (mayFill : Bool) (before : Nat) :
    linearFragment e path mayFill before = .skipped (.tooFewPoints e.typeName e.id) := by
  unfold linearFragment
  dsimp only
  split
  · rename_i hpoints _
    rw [hpoints, List.length_cons, List.length_cons] at h
    exact absurd h (by omega)
  · rfl

/-- A line with two points at least is drawn with its heads, each at the end of a segment. -/
theorem exists_linearFragment {e : Element Float} {path : LinearPath Float}
    (h : 2 ≤ (finitePoints e path.points).length) (mayFill : Bool) (before : Nat) :
    ∃ fill start finish, (fill = fillPaint e before ∨ fill = "none") ∧
      (∃ tail tip, start = headFragment e path.startArrowhead tail tip) ∧
      (∃ tail tip, finish = headFragment e path.endArrowhead tail tip) ∧
      linearFragment e path mayFill before =
        ⟨outlineNodes e fill ++ start.nodes ++ finish.nodes, patternsOf e before,
          start.diagnostics ++ finish.diagnostics⟩ := by
  obtain ⟨p, q, r, s, front, back, hpoints, hreverse⟩ := exists_ends h
  have hfill := ite_eq_or_eq ((mayFill && isClosed (finitePoints e path.points)) = true)
    (fillPaint e before) "none"
  refine ⟨_, _, _, hfill, ⟨q, p, rfl⟩, ⟨s, r, rfl⟩, ?_⟩
  rw [hpoints] at hreverse
  unfold linearFragment
  simp only [hpoints, hreverse]

end DiagramScene.Svg
