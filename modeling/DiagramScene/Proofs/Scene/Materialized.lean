import Mathlib
import DiagramScene.Proofs.Label.DrawnIds
import DiagramScene.Proofs.Scene.Links
import DiagramScene.Scene.Pipeline

/-!
# Materialized scenes are linked

Materialization names elements that have no id, puts texts between the shapes and adds to what is
attached to a shape.  None of this breaks the ties of a list of shapes that is `Linkable`, if the
ids that are drawn are `Fresh`.

The proof goes along the blocks of the list.  `Progress` relates the shapes that are done to the
elements that have come out and the ids that have been drawn: it holds of nothing, one block keeps
it (`Progress.block`), and so do all blocks of a list (`Progress.blocks`).  The main statement is
`linkIssues_assemble_materialize`.
-/

namespace DiagramScene

variable {α σ : Type}

namespace Element

/-- Shapes that can be linked: the ids among them that are not empty are pairwise distinct, and a
text that names a container comes after it and is listed by it, both with ids that are not empty. -/
structure Linkable (shapes : List (Element α)) : Prop where
  /-- No two shapes share an id, an empty one apart. -/
  ids_nodup : ((shapes.map (·.id)).filter (· ≠ "")).Nodup
  /-- A text that names a container comes after it, and is listed by it. -/
  linked : Linked shapes
  /-- A text that names a container has an id, and names the container by an id. -/
  ids_ne : ∀ e ∈ shapes, ∀ c, e.containerId? = some c → e.id ≠ "" ∧ c ≠ ""

/-- The beginning of a list of shapes that can be linked. -/
theorem Linkable.of_prefix {shapes shapes' : List (Element α)} (h : Linkable shapes')
    (hp : shapes <+: shapes') : Linkable shapes where
  ids_nodup := h.ids_nodup.sublist ((hp.sublist.map _).filter _)
  linked := h.linked.of_prefix hp
  ids_ne e he := h.ids_ne e (hp.subset he)

/-- The id of the last shape of a list that can be linked is new, unless it is empty. -/
theorem Linkable.id_last_notMem {shapes : List (Element α)} {shape : Element α}
    (h : Linkable (shapes ++ [shape])) (hid : shape.id ≠ "") :
    shape.id ∉ shapes.map (·.id) := by
  have hnodup := h.ids_nodup
  simp only [List.map_append, List.map_cons, List.map_nil, List.filter_append] at hnodup
  intro hmem
  refine (List.nodup_append.mp hnodup).2.2 shape.id ?_ shape.id ?_ rfl
  · exact List.mem_filter.mpr ⟨hmem, by simpa using hid⟩
  · exact List.mem_filter.mpr ⟨List.mem_singleton.mpr rfl, by simpa using hid⟩

end Element

/-- Ids that may be given to elements beside those of a list of shapes: they are pairwise distinct,
none is empty, and none is the id of a shape. -/
structure Fresh (shapes : List (Element α)) (ids : List String) : Prop where
  nodup : ids.Nodup
  ne_empty : ∀ id ∈ ids, id ≠ ""
  notMem : ∀ id ∈ ids, id ∉ shapes.map (·.id)

/-- Fewer ids are fresh beside fewer shapes. -/
theorem Fresh.of_prefix {shapes shapes' : List (Element α)} {ids ids' : List String}
    (h : Fresh shapes' ids') (hshapes : shapes <+: shapes') (hids : ids <+: ids') :
    Fresh shapes ids where
  nodup := h.nodup.sublist hids.sublist
  ne_empty id hid := h.ne_empty id (hids.subset hid)
  notMem id hid hmem := h.notMem id (hids.subset hid) ((hshapes.sublist.map _).subset hmem)

/-- The last of some fresh ids is not among the others. -/
theorem Fresh.last_notMem {shapes : List (Element α)} {ids : List String} {id : String}
    (h : Fresh shapes (ids ++ [id])) : id ∉ ids := by
  intro hmem
  exact (List.nodup_append.mp h.nodup).2.2 id hmem id (List.mem_singleton.mpr rfl) rfl

namespace Label

/-! ### The ids that a block draws -/

/-- The list of a recording source after a shape has been named. -/
theorem IsNamed.recorded {source : IdSource σ} {shape : Element α} {s s₁ : σ × List String}
    {id : String} (h : IsNamed source.recording shape s id s₁) :
    (id = shape.id ∧ shape.id ≠ "" ∧ s₁.2 = s.2) ∨ (shape.id = "" ∧ s₁.2 = s.2 ++ [id]) := by
  cases h with
  | own hid => exact .inl ⟨rfl, hid, rfl⟩
  | drawn hid => exact .inr ⟨hid, rfl⟩

/-- A shape that has an id goes by it. -/
theorem IsNamed.id_eq {source : IdSource σ} {shape : Element α} {s s₁ : σ} {id : String}
    (h : IsNamed source shape s id s₁) (hne : shape.id ≠ "") : id = shape.id := by
  cases h with
  | own _ => rfl
  | drawn hempty => exact absurd hempty hne

/-- Naming a shape adds the id that it draws behind those that have been drawn. -/
theorem IsNamed.prefix_recorded {source : IdSource σ} {shape : Element α}
    {s s₁ : σ × List String} {id : String} (h : IsNamed source.recording shape s id s₁) :
    s.2 <+: s₁.2 := by
  rcases h.recorded with ⟨_, _, hs⟩ | ⟨_, hs⟩
  · exact hs ▸ List.prefix_rfl
  · exact hs ▸ List.prefix_append _ _

/-- The list of a recording source grows by the id of the text. -/
theorem afterText_recording (source : IdSource σ) (s : σ × List String) :
    (afterText source.recording s).2 = s.2 ++ [(source.recording.nextId s).1] := rfl

/-- A block adds the ids that it draws behind those that have been drawn. -/
theorem IsBlock.prefix_recorded {source : IdSource σ} {labels : ClassLabels} {shape : Element α}
    {s s' : σ × List String} {block : List (Element α)}
    (h : IsBlock source.recording labels shape s block s') : s.2 <+: s'.2 := by
  cases h with
  | bare hid _ => exact hid.prefix_recorded
  | labeled hid _ _ _ _ _ _ _ =>
    rw [afterText_recording]
    exact hid.prefix_recorded.trans (List.prefix_append _ _)

/-- The blocks of a list add the ids that they draw behind those that have been drawn. -/
theorem Blocks.prefix_recorded {source : IdSource σ} {labels : ClassLabels}
    {shapes : List (Element α)} {s s' : σ × List String} {blocks : List (List (Element α))}
    (h : Blocks source.recording labels shapes s blocks s') : s.2 <+: s'.2 := by
  induction h with
  | nil s => exact List.prefix_rfl
  | cons hblock _ ih => exact hblock.prefix_recorded.trans ih

end Label

/-! ### The invariant -/

/-- What relates the shapes that are done, the elements that have come out for them, and the ids
that have been drawn. -/
structure Progress (shapes elements : List (Element α)) (drawn : List String) : Prop where
  /-- An id has been drawn, or is that of a shape and not empty. -/
  id_mem : ∀ e ∈ elements, e.id ∈ drawn ∨ e.id ≠ "" ∧ e.id ∈ shapes.map (·.id)
  /-- The ids are pairwise distinct. -/
  ids_nodup : (elements.map (·.id)).Nodup
  /-- A shape with an id is there, and lists what it has listed. -/
  kept : ∀ shape ∈ shapes, shape.id ≠ "" → ∃ e ∈ elements, e.id = shape.id ∧
    ∀ id, shape.lists id = true → e.lists id = true
  /-- Every text comes after its container, and is listed by it. -/
  linked : Element.Linked elements

namespace Progress

variable {shapes elements : List (Element α)} {drawn : List String}

/-- Nothing is done. -/
theorem nil : Progress ([] : List (Element α)) [] [] where
  id_mem _ he := absurd he List.not_mem_nil
  ids_nodup := List.nodup_nil
  kept _ he := absurd he List.not_mem_nil
  linked := Element.linked_nil

/-- An id that has not been drawn and that no shape has is new. -/
theorem id_notMem (h : Progress shapes elements drawn) {id : String} (hdrawn : id ∉ drawn)
    (hshapes : id ≠ "" → id ∉ shapes.map (·.id)) : id ∉ elements.map (·.id) := by
  intro hmem
  obtain ⟨e, he, rfl⟩ := List.mem_map.mp hmem
  rcases h.id_mem e he with hd | ⟨hne, hs⟩
  · exact hdrawn hd
  · exact hshapes hne hs

/-- The ids stay distinct with an element that has a new one. -/
theorem ids_nodup_concat (h : Progress shapes elements drawn) {e : Element α}
    (hid : e.id ∉ elements.map (·.id)) : ((elements ++ [e]).map (·.id)).Nodup := by
  rw [List.map_append, List.nodup_append]
  refine ⟨h.ids_nodup, List.nodup_singleton _, ?_⟩
  intro id hmem b hb heq
  have hb' : b = e.id := List.mem_singleton.mp hb
  exact hid (hb' ▸ heq ▸ hmem)

/-- A text that names a container still has it among the elements that have come out. -/
theorem anchored (h : Progress shapes elements drawn) {shape : Element α}
    (hshapes : Element.Linkable (shapes ++ [shape])) {id : String} {c : String}
    (hid : shape.id ≠ "" → id = shape.id) (hc : shape.containerId? = some c) :
    ∃ owner ∈ elements, owner.id = c ∧ owner.lists id = true := by
  obtain ⟨hne, hcne⟩ := hshapes.ids_ne shape (by simp) c hc
  obtain ⟨owner, howner, rfl, hlists⟩ := hshapes.linked.anchored_last c hc
  obtain ⟨e, he, heid, hkept⟩ := h.kept owner howner hcne
  exact ⟨e, he, heid, by rw [hid hne]; exact hkept _ hlists⟩

/-- The id by which a shape goes is new. -/
theorem named_notMem {source : IdSource σ} {shape : Element α} {s s₁ : σ × List String}
    {id : String} (h : Progress shapes elements s.2)
    (hnamed : Label.IsNamed source.recording shape s id s₁)
    (hshapes : Element.Linkable (shapes ++ [shape])) (hfresh : Fresh (shapes ++ [shape]) s₁.2) :
    id ∉ elements.map (·.id) := by
  rcases hnamed.recorded with ⟨rfl, hne, hs⟩ | ⟨_, hs⟩
  · rw [hs] at hfresh
    refine h.id_notMem (fun hd => ?_) fun _ => hshapes.id_last_notMem hne
    exact hfresh.notMem shape.id hd (by simp)
  · rw [hs] at hfresh
    refine h.id_notMem hfresh.last_notMem fun _ hmem => ?_
    have hid : id ∉ (shapes ++ [shape]).map (·.id) := hfresh.notMem id (by simp)
    rw [List.map_append, List.mem_append, not_or] at hid
    exact hid.1 hmem

/-- A shape keeps the invariant, whatever is attached to it in addition. -/
theorem owner {source : IdSource σ} {shape owner : Element α} {s s₁ : σ × List String}
    (h : Progress shapes elements s.2)
    (hnamed : Label.IsNamed source.recording shape s owner.id s₁)
    (hshapes : Element.Linkable (shapes ++ [shape])) (hfresh : Fresh (shapes ++ [shape]) s₁.2)
    (hkind : owner.kind = shape.kind)
    (hlists : ∀ id, shape.lists id = true → owner.lists id = true) :
    Progress (shapes ++ [shape]) (elements ++ [owner]) s₁.2 := by
  have hnew := h.named_notMem hnamed hshapes hfresh
  refine ⟨?_, h.ids_nodup_concat hnew, ?_, h.linked.concat ?_⟩
  · intro e he
    rcases List.mem_append.mp he with he | he
    · rcases h.id_mem e he with hd | ⟨hne, hs⟩
      · exact .inl (hnamed.prefix_recorded.subset hd)
      · exact .inr ⟨hne, by rw [List.map_append]; exact List.mem_append_left _ hs⟩
    · rw [List.mem_singleton.mp he]
      rcases hnamed.recorded with ⟨hid, hne, _⟩ | ⟨_, hs⟩
      · exact .inr (hid ▸ ⟨hne, List.mem_map_of_mem (by simp)⟩)
      · exact .inl (by simp [hs])
  · intro e he hne
    rcases List.mem_append.mp he with he | he
    · obtain ⟨e', he', hid, hkept⟩ := h.kept e he hne
      exact ⟨e', List.mem_append_left _ he', hid, hkept⟩
    · obtain rfl := List.mem_singleton.mp he
      exact ⟨owner, by simp, hnamed.id_eq hne, hlists⟩
  · intro c hc
    refine h.anchored hshapes hnamed.id_eq ?_
    rwa [Element.containerId?, hkind] at hc

/-- A text with a drawn id keeps the invariant behind a shape that lists it. -/
theorem text (h : Progress shapes elements drawn) {text owner : Element α} {c : String}
    (howner : owner ∈ elements) (hid : owner.id = c) (hlists : owner.lists text.id = true)
    (hc : text.containerId? = some c) (hfresh : Fresh shapes (drawn ++ [text.id])) :
    Progress shapes (elements ++ [text]) (drawn ++ [text.id]) := by
  have hnew : text.id ∉ elements.map (·.id) :=
    h.id_notMem hfresh.last_notMem fun _ => hfresh.notMem text.id (by simp)
  refine ⟨?_, h.ids_nodup_concat hnew, ?_, h.linked.concat ?_⟩
  · intro e he
    rcases List.mem_append.mp he with he | he
    · exact (h.id_mem e he).imp_left (List.mem_append_left _)
    · rw [List.mem_singleton.mp he]
      exact .inl (by simp)
  · intro e he hne
    obtain ⟨e', he', hid, hkept⟩ := h.kept e he hne
    exact ⟨e', List.mem_append_left _ he', hid, hkept⟩
  · intro c' hc'
    obtain rfl : c = c' := Option.some.inj (hc.symm.trans hc')
    exact ⟨owner, howner, hid, hlists⟩

/-- A block keeps the invariant. -/
theorem block {source : IdSource σ} {labels : ClassLabels} {shape : Element α}
    {s s' : σ × List String} {block : List (Element α)} (h : Progress shapes elements s.2)
    (hblock : Label.IsBlock source.recording labels shape s block s')
    (hshapes : Element.Linkable (shapes ++ [shape])) (hfresh : Fresh (shapes ++ [shape]) s'.2) :
    Progress (shapes ++ [shape]) (elements ++ block) s'.2 := by
  cases hblock with
  | bare named _ =>
    exact h.owner named hshapes hfresh rfl fun _ hl => hl
  | @labeled id s₁ text content named _ text_id text_kind _ container _ _ =>
    rw [Label.afterText_recording, ← text_id] at hfresh ⊢
    have hlists : ∀ id', shape.lists id' = true → Element.lists { shape with
        id := id, label := none,
        boundElements := some (shape.bound ++ [⟨text.id, .text⟩]) } id' = true := by
      intro id' hl
      simp only [Element.lists, Element.boundIds, List.contains_iff_mem] at hl ⊢
      simp [Element.bound] at hl ⊢
      exact .inl hl
    have howner : Progress (shapes ++ [shape]) (elements ++ [{ shape with
        id := id, label := none,
        boundElements := some (shape.bound ++ [⟨text.id, .text⟩]) }]) s₁.2 :=
      h.owner named hshapes (hfresh.of_prefix List.prefix_rfl (List.prefix_append _ _)) rfl
        hlists
    have htext := howner.text (List.mem_append_right _ (List.mem_singleton.mpr rfl)) rfl
      (by simp [Element.lists, Element.boundIds, Element.bound])
      (by rw [Element.containerId?, text_kind]; exact container) hfresh
    rwa [List.append_assoc] at htext

/-- The blocks of a list keep the invariant. -/
theorem blocks {source : IdSource σ} {labels : ClassLabels} {rest : List (Element α)}
    {s s' : σ × List String} {blocks : List (List (Element α))}
    (hblocks : Label.Blocks source.recording labels rest s blocks s')
    (h : Progress shapes elements s.2) (hshapes : Element.Linkable (shapes ++ rest))
    (hfresh : Fresh (shapes ++ rest) s'.2) :
    Progress (shapes ++ rest) (elements ++ blocks.flatten) s'.2 := by
  induction hblocks generalizing shapes elements with
  | nil s => simpa using h
  | @cons shape rest s s₁ s₂ block blocks hblock hrest ih =>
    have hsplit : shapes ++ shape :: rest = shapes ++ [shape] ++ rest := by simp
    rw [hsplit] at hshapes hfresh ⊢
    have hpre : shapes ++ [shape] <+: shapes ++ [shape] ++ rest := List.prefix_append _ _
    have hstep := h.block hblock (hshapes.of_prefix hpre)
      (hfresh.of_prefix hpre hrest.prefix_recorded)
    rw [List.flatten_cons, ← List.append_assoc]
    exact ih hstep hshapes hfresh

end Progress

/-- When all shapes are done, the elements that have come out have ids that are not empty. -/
theorem Progress.id_ne_empty {shapes elements : List (Element α)} {drawn : List String}
    (h : Progress shapes elements drawn) (hfresh : Fresh shapes drawn) :
    ∀ e ∈ elements, e.id ≠ "" := by
  intro e he
  rcases h.id_mem e he with hd | ⟨hne, _⟩
  · exact hfresh.ne_empty _ hd
  · exact hne

/-- The elements that materialization makes of shapes that can be linked are in order, if the ids
that it draws are fresh. -/
theorem progress_materialize [Scalar α] {source : IdSource σ} {measurer : Measurer α}
    {labels : ClassLabels} {shapes : List (Element α)} {s : σ}
    (hshapes : Element.Linkable shapes)
    (hfresh : Fresh shapes (drawnIds source measurer labels shapes s)) :
    Progress shapes (materialize source measurer labels shapes s).1
      (drawnIds source measurer labels shapes s) := by
  obtain ⟨blocks, hflat, hblocks⟩ :=
    Label.exists_blocks source.recording measurer labels shapes (s, [])
  rw [(materialize_recording source measurer labels shapes s []).1] at hflat
  rw [hflat]
  exact Progress.blocks hblocks Progress.nil hshapes hfresh

/-- A scene of materialized shapes has no link issues, if the shapes can be linked and the ids that
are drawn are fresh: all ids are there and pairwise distinct, and every text comes after its
container, which lists it. -/
theorem linkIssues_assemble_materialize (source : IdSource σ) (measurer : Measurer Float)
    (labels : ClassLabels) (shapes : List (Element Float)) (params : OutputParams) (s : σ)
    (hshapes : Element.Linkable shapes)
    (hfresh : Fresh shapes (drawnIds source measurer labels shapes s)) :
    let scene := Scene.assemble (materialize source measurer labels shapes s).1 params
    scene.linkIssues = [] ∧ (∀ e ∈ scene.elements, e.id ≠ "") ∧
      (scene.elements.map (·.id)).Nodup ∧ Element.Linked scene.elements := by
  intro scene
  have h := progress_materialize hshapes hfresh
  exact ⟨Element.linkIssues_eq_nil h.ids_nodup h.linked, h.id_ne_empty hfresh, h.ids_nodup,
    h.linked⟩

/-! ### A list of shapes with all kinds of ties -/

/-- Ids that grow by a letter with each draw. -/
def letterSource : IdSource Nat where
  nextId n := (String.ofList (List.replicate (n + 1) 'g'), n + 1)
  nextNonce n := (7, n)
  now n := (42, n)

/-- A labeled shape without an id. -/
def labeledBox : Element Float :=
  { Element.ofKind .rectangle with label := some { InlineLabel.empty with text := " box " } }

/-- A class that lists a text. -/
def listingClass : Element Float :=
  { Element.ofKind .ellipse with id := "a", boundElements := some [⟨"t", .text⟩] }

/-- The text that the class lists. -/
def listedNote : Element Float :=
  { Element.ofKind (.text { TextContent.empty with text := "note", containerId := some "a" }) with
    id := "t" }

/-- Shapes of which the first and the second get a text, and the third is one. -/
def tiedShapes : List (Element Float) := [labeledBox, listingClass, listedNote]

/-- The tied shapes can be linked. -/
theorem linkable_tiedShapes : Element.Linkable tiedShapes where
  ids_nodup := by decide
  linked := by
    refine ((Element.linked_nil.concat ?_).concat ?_).concat ?_
    · exact fun c hc => nomatch hc
    · exact fun c hc => nomatch hc
    · intro c hc
      obtain rfl : "a" = c := Option.some.inj hc
      exact ⟨listingClass, by simp, rfl, by decide⟩
  ids_ne := by
    intro e he c hc
    simp only [tiedShapes, List.mem_cons, List.not_mem_nil, or_false] at he
    rcases he with rfl | rfl | rfl
    · exact nomatch hc
    · exact nomatch hc
    · obtain rfl : "a" = c := Option.some.inj hc
      exact ⟨by decide, by decide⟩

/-- The ids drawn for the tied shapes: one for the shape without an id, and one for each text. -/
theorem drawnIds_tiedShapes :
    drawnIds letterSource Measurer.default [("a", "A")] tiedShapes 0 = ["g", "gg", "ggg"] := by
  decide

/-- The ids drawn for the tied shapes are fresh. -/
theorem fresh_tiedShapes :
    Fresh tiedShapes (drawnIds letterSource Measurer.default [("a", "A")] tiedShapes 0) := by
  rw [drawnIds_tiedShapes]
  exact ⟨by decide, by decide, by decide⟩

/-- The scene of the tied shapes has no link issues. -/
theorem linkIssues_tiedShapes :
    Element.Linkable tiedShapes ∧
      Fresh tiedShapes (drawnIds letterSource Measurer.default [("a", "A")] tiedShapes 0) ∧
      (Scene.assemble (materialize letterSource Measurer.default [("a", "A")] tiedShapes 0).1
        OutputParams.empty).linkIssues = [] :=
  ⟨linkable_tiedShapes, fresh_tiedShapes,
    (linkIssues_assemble_materialize letterSource Measurer.default [("a", "A")] tiedShapes
      OutputParams.empty 0 linkable_tiedShapes fresh_tiedShapes).1⟩

end DiagramScene
