import Mathlib
import DiagramScene.Proofs.Label.DrawnIds
import DiagramScene.Proofs.Scene.Materialized
import DiagramScene.Proofs.Svg.Deleted

/-!
# Drawn ids are only names

Two runs of materialization over the same shapes draw their ids from sources of any kind.  If the ids
of neither run are in use (`Unused`), the runs go side by side: they draw as many ids, and what comes
out of the second is what comes out of the first with its ids renamed, but for the nonces and the
times of the texts.

A block of the second run is a renamed block of the first (`Label.sameBlock_block`), and the runs are
compared block by block (`sameBlocks_materialize`).  A drawing does not show the names of its
elements, so both lists of elements are drawn alike: the main statement is `materialize_renamed`.
-/

namespace DiagramScene

variable {α σ σ' : Type}

/-! ### Renaming -/

/-- The names of a list become those of another list in the same places; other names stay. -/
def rename (ids ids' : List String) (id : String) : String :=
  (Keyed.get? (ids.zip ids') id).getD id

/-- A name that is not in the list stays. -/
theorem rename_of_notMem {ids : List String} (ids' : List String) {id : String}
    (h : id ∉ ids) : rename ids ids' id = id := by
  have hkeys : id ∉ Keyed.keys (ids.zip ids') := by
    intro hmem
    obtain ⟨e, he, rfl⟩ := List.mem_map.mp hmem
    exact h (List.of_mem_zip he).1
  rw [rename, Keyed.get?_eq_none_iff.mpr hkeys, Option.getD_none]

/-- Distinct names become those of the other list. -/
theorem map_rename {ids ids' : List String} (hnodup : ids.Nodup)
    (hlength : ids.length = ids'.length) : ids.map (rename ids ids') = ids' := by
  induction ids generalizing ids' with
  | nil => exact (List.length_eq_zero_iff.mp hlength.symm).symm
  | cons id ids ih =>
    cases ids' with
    | nil => exact nomatch hlength
    | cons id' ids' =>
      obtain ⟨hid, hrest⟩ := List.nodup_cons.mp hnodup
      have htail : ids.map (rename (id :: ids) (id' :: ids')) = ids.map (rename ids ids') := by
        refine List.map_congr_left fun x hx => ?_
        have hne : (x == id) = false := beq_false_of_ne fun heq => hid (heq ▸ hx)
        simp only [rename, Keyed.get?, List.zip_cons_cons, List.lookup_cons, hne]
      rw [List.map_cons, htail, ih hrest (Nat.succ.inj hlength)]
      simp [rename, Keyed.get?]

/-- The kind of an element, where the container of a text goes by another name. -/
def ElementKind.renamed (ρ : String → String) : ElementKind α → ElementKind α
  | text t => text { t with containerId := t.containerId.map ρ }
  | kind => kind

namespace Element

/-- What is attached to an element, by other names. -/
def renamedBound (ρ : String → String) (bound : List BoundElement) : List BoundElement :=
  bound.map fun b => { b with id := ρ b.id }

/-- An element with other names for itself, for what is attached to it and for its container. -/
def renamed (ρ : String → String) (e : Element α) : Element α :=
  { e with
    id := ρ e.id
    boundElements := e.boundElements.map (renamedBound ρ)
    kind := e.kind.renamed ρ }

/-- An element without its nonces and its time. -/
def unstamped (e : Element α) : Element α :=
  { e with seed := 0, versionNonce := 0, updated := 0 }

/-- An element looks the same by other names. -/
theorem looks_renamed (ρ : String → String) (e : Element α) :
    (e.renamed ρ).looks = e.looks := by
  have hkind : (e.kind.renamed ρ).unbound = e.kind.unbound := by
    cases e.kind <;> rfl
  unfold looks renamed
  dsimp only
  rw [hkind]

/-- An element looks the same without its nonces and its time. -/
theorem looks_unstamped (e : Element α) : e.unstamped.looks = e.looks := rfl

/-- A renaming leaves the names alone that a shape brings with it. -/
structure KeptBy (ρ : String → String) (shape : Element α) : Prop where
  id : shape.id ≠ "" → ρ shape.id = shape.id
  bound : ∀ id ∈ shape.boundIds, ρ id = id
  container : ∀ c, shape.containerId? = some c → ρ c = c

namespace KeptBy

variable {ρ : String → String} {shape : Element α}

/-- The kind of the shape stays. -/
theorem renamed_kind (h : shape.KeptBy ρ) : shape.kind.renamed ρ = shape.kind := by
  have hcontainer := h.container
  unfold containerId? at hcontainer
  cases hkind : shape.kind with
  | text t =>
    rw [hkind] at hcontainer
    change ∀ c, t.containerId = some c → ρ c = c at hcontainer
    have hmap : t.containerId.map ρ = t.containerId := by
      cases hc : t.containerId with
      | none => rfl
      | some c => rw [Option.map_some, hcontainer c hc]
    rw [ElementKind.renamed, hmap]
  | _ => rfl

/-- What is attached to the shape stays. -/
theorem renamedBound_bound (h : shape.KeptBy ρ) : renamedBound ρ shape.bound = shape.bound := by
  have hbound : ∀ b ∈ shape.bound, ({ b with id := ρ b.id } : BoundElement) = b := by
    intro b hb
    rw [h.bound b.id (List.mem_map_of_mem hb)]
  exact (List.map_congr_left hbound).trans (List.map_id' _)

/-- A shape without a text changes its own name alone. -/
theorem renamed_bare (h : shape.KeptBy ρ) (id : String) :
    (Label.bare { shape with id := id }).renamed ρ = Label.bare { shape with id := ρ id } := by
  have hbound : shape.boundElements.map (renamedBound ρ) = shape.boundElements := by
    have hlist := h.renamedBound_bound
    unfold Element.bound at hlist
    cases hsome : shape.boundElements with
    | none => rfl
    | some bound =>
      rw [hsome] at hlist
      exact congrArg some hlist
  unfold renamed Label.bare
  dsimp only
  rw [hbound, h.renamed_kind]

/-- A shape with a text changes its own name and that of the text. -/
theorem renamed_attach (h : shape.KeptBy ρ) (id text : String) :
    ((Label.bare { shape with id := id }).attach ⟨text, .text⟩).renamed ρ =
      (Label.bare { shape with id := ρ id }).attach ⟨ρ text, .text⟩ := by
  have hbound : renamedBound ρ (shape.bound ++ [⟨text, .text⟩]) =
      shape.bound ++ [⟨ρ text, .text⟩] := by
    have hlist := h.renamedBound_bound
    unfold renamedBound at hlist ⊢
    rw [List.map_append, hlist, List.map_singleton]
  change ({ Label.bare { shape with id := ρ id } with
    boundElements := some (renamedBound ρ (shape.bound ++ [⟨text, .text⟩]))
    kind := shape.kind.renamed ρ } : Element α) = _
  rw [hbound, h.renamed_kind]
  rfl

end KeptBy

end Element

/-! ### One shape in two runs -/

namespace Label

variable {labels : ClassLabels}

/-- The label of the class of a shape depends on its name only through the entry for it. -/
theorem classText?_eq {shape : Element α} {id id' : String}
    (h : labels.get? id = labels.get? id') :
    classText? labels { shape with id := id } = classText? labels { shape with id := id' } := by
  unfold classText?
  dsimp only
  rw [h]
  rfl

/-- A shape has the same text by another name that has the same entry. -/
theorem text?_eq {shape : Element α} {id id' : String} (h : labels.get? id = labels.get? id') :
    text? labels { shape with id := id } = text? labels { shape with id := id' } := by
  rw [text?, classText?_eq h]
  rfl

/-- A block is another one with other names, but for the nonces and the time of its text. -/
inductive SameBlock (ρ : String → String) : List (Element α) → List (Element α) → Prop
  | bare (shape : Element α) : SameBlock ρ [shape] [shape.renamed ρ]
  | labeled (shape : Element α) {text text' : Element α}
    (text_eq : (text.renamed ρ).unstamped = text'.unstamped) :
    SameBlock ρ [shape, text] [shape.renamed ρ, text']

/-- The elements of the same blocks look the same. -/
theorem map_looks_flatten {ρ : String → String} {blocks blocks' : List (List (Element α))}
    (h : List.Forall₂ (SameBlock ρ) blocks blocks') :
    blocks.flatten.map Element.looks = blocks'.flatten.map Element.looks := by
  induction h with
  | nil => rfl
  | cons hblock _ ih =>
    rw [List.flatten_cons, List.flatten_cons, List.map_append, List.map_append, ih]
    refine congrArg (· ++ _) ?_
    cases hblock with
    | bare shape => rw [List.map_singleton, List.map_singleton, shape.looks_renamed]
    | @labeled shape text text' htext =>
      have hlooks : text.looks = text'.looks := by
        rw [← text'.looks_unstamped, ← htext, Element.looks_unstamped, text.looks_renamed]
      simp only [List.map_cons, shape.looks_renamed, hlooks]

/-- Names that are drawn are no keys of the class labels. -/
def NoKeys (labels : ClassLabels) (ids : List String) : Prop :=
  ∀ id ∈ ids, id ∉ Keyed.keys labels

section TwoRuns

variable {source : IdSource σ} {source' : IdSource σ'} {shape : Element α} {s : σ} {s' : σ'}

/-- In two runs a shape keeps its name, or gets one in each that has no entry. -/
theorem exists_names (hkeys : NoKeys labels (drawnFor source labels shape s))
    (hkeys' : NoKeys labels (drawnFor source' labels shape s')) :
    ∃ id id', (named source shape s).1 = { shape with id := id } ∧
      (named source' shape s').1 = { shape with id := id' } ∧ labels.get? id = labels.get? id' ∧
      ∀ ρ, (shape.id ≠ "" → ρ shape.id = shape.id) →
        (drawnFor source labels shape s).map ρ = drawnFor source' labels shape s' → ρ id = id' := by
  unfold named drawnFor at *
  cases hempty : shape.id.isEmpty with
  | true =>
    rw [hempty] at hkeys hkeys'
    refine ⟨_, _, rfl, rfl, ?_, fun ρ _ hmap => ?_⟩
    · rw [Keyed.get?_eq_none_iff.mpr (hkeys _ (List.mem_cons_self ..)),
        Keyed.get?_eq_none_iff.mpr (hkeys' _ (List.mem_cons_self ..))]
    · exact (List.cons.inj hmap).1
  | false =>
    refine ⟨shape.id, shape.id, rfl, rfl, rfl, fun ρ hρ _ => hρ ?_⟩
    rintro hid
    rw [hid] at hempty
    exact nomatch hempty

/-- A shape has the same text in two runs. -/
theorem text?_named (hkeys : NoKeys labels (drawnFor source labels shape s))
    (hkeys' : NoKeys labels (drawnFor source' labels shape s')) :
    text? labels (named source shape s).1 = text? labels (named source' shape s').1 := by
  obtain ⟨id, id', hnamed, hnamed', hget, _⟩ := exists_names hkeys hkeys'
  rw [hnamed, hnamed', text?_eq hget]

/-- A shape draws as many names in two runs. -/
theorem length_drawnFor (hkeys : NoKeys labels (drawnFor source labels shape s))
    (hkeys' : NoKeys labels (drawnFor source' labels shape s')) :
    (drawnFor source labels shape s).length = (drawnFor source' labels shape s').length := by
  have htext := text?_named hkeys hkeys'
  unfold drawnFor
  rw [htext]
  cases shape.id.isEmpty <;> cases (text? labels (named source' shape s').1).isSome <;> rfl

end TwoRuns

end Label

/-- Ids that are not in use: they are pairwise distinct, none of them is the id of a shape, of what is
attached to a shape or of the container of a text, and none has an entry in the class labels. -/
structure Unused (labels : ClassLabels) (shapes : List (Element α)) (ids : List String) : Prop where
  nodup : ids.Nodup
  notMem_ids : ∀ id ∈ ids, id ∉ shapes.map (·.id)
  notMem_bound : ∀ id ∈ ids, id ∉ shapes.flatMap (·.boundIds)
  notMem_containers : ∀ id ∈ ids, id ∉ shapes.filterMap (·.containerId?)
  noKeys : ∀ id ∈ ids, id ∉ Keyed.keys labels

/-- A renaming of ids that are not in use keeps the names that the shapes bring with them. -/
theorem Unused.keptBy {labels : ClassLabels} {shapes : List (Element α)} {ids : List String}
    (h : Unused labels shapes ids) (ids' : List String) :
    ∀ shape ∈ shapes, shape.KeptBy (rename ids ids') := by
  intro shape hshape
  refine ⟨fun _ => ?_, fun id hid => ?_, fun c hc => ?_⟩
  · exact rename_of_notMem ids' fun hmem => h.notMem_ids _ hmem (List.mem_map_of_mem hshape)
  · exact rename_of_notMem ids' fun hmem =>
      h.notMem_bound _ hmem (List.mem_flatMap.mpr ⟨shape, hshape, hid⟩)
  · exact rename_of_notMem ids' fun hmem =>
      h.notMem_containers _ hmem (List.mem_filterMap.mpr ⟨shape, hshape, hc⟩)

variable [Scalar α]

namespace Label

/-- The text element of a shape by another name that has the same entry names it by that. -/
theorem textElement_eq {ρ : String → String} {shape : Element α} {id : String}
    (measurer : Measurer α) (h : labels.get? id = labels.get? (ρ id)) (text : String) :
    textElement measurer labels { shape with id := ρ id } text =
      { textElement measurer labels { shape with id := id } text with
        kind := (textElement measurer labels { shape with id := id } text).kind.renamed ρ } := by
  have hplacement : placement labels { shape with id := id } =
      placement labels { shape with id := ρ id } := by
    rw [placement, placement, classText?_eq h]
  have hsize : fontSize labels { shape with id := id } =
      fontSize labels { shape with id := ρ id } := by
    rw [fontSize, fontSize, hplacement]
  unfold textElement
  dsimp only
  rw [hplacement, hsize]
  rfl

/-- A shape becomes the same block in two runs. -/
theorem sameBlock_block {source : IdSource σ} {source' : IdSource σ'} {measurer : Measurer α}
    {shape : Element α} {s : σ} {s' : σ'} {ρ : String → String}
    (hkeys : NoKeys labels (drawnFor source labels shape s))
    (hkeys' : NoKeys labels (drawnFor source' labels shape s')) (hkept : shape.KeptBy ρ)
    (hmap : (drawnFor source labels shape s).map ρ = drawnFor source' labels shape s') :
    SameBlock ρ (block source measurer labels shape s).1
      (block source' measurer labels shape s').1 := by
  obtain ⟨id, id', hnamed, hnamed', hget, hname⟩ := exists_names hkeys hkeys'
  obtain rfl := hname ρ hkept.id hmap
  have htext := text?_named hkeys hkeys'
  unfold block
  dsimp only
  rw [htext]
  cases hsome : text? labels (named source' shape s').1 with
  | none =>
    dsimp only
    rw [hnamed, hnamed', ← hkept.renamed_bare id]
    exact .bare _
  | some text =>
    have hdrawn : ρ (source.nextId (named source shape s).2).1 =
        (source'.nextId (named source' shape s').2).1 := by
      have hlast := congrArg List.getLast? hmap
      simpa [drawnFor, htext, hsome] using hlast
    dsimp only
    rw [hnamed, hnamed']
    change SameBlock ρ [(bare { shape with id := id }).attach ⟨(source.nextId (named source shape s).2).1, .text⟩, _]
      [(bare { shape with id := ρ id }).attach ⟨(source'.nextId (named source' shape s').2).1, .text⟩, _]
    rw [← hdrawn, ← hkept.renamed_attach]
    refine .labeled _ ?_
    unfold stamped
    dsimp only
    rw [textElement_eq measurer hget]
    simp only [Element.renamed, Element.unstamped, hdrawn]
    rfl

end Label

/-! ### All shapes in two runs -/

section TwoRuns

variable {source : IdSource σ} {source' : IdSource σ'} {measurer : Measurer α}
  {labels : ClassLabels} {shapes : List (Element α)} {s : σ} {s' : σ'}

/-- Two runs draw as many ids. -/
theorem length_drawnIds
    (hkeys : Label.NoKeys labels (drawnIds source measurer labels shapes s))
    (hkeys' : Label.NoKeys labels (drawnIds source' measurer labels shapes s')) :
    (drawnIds source measurer labels shapes s).length =
      (drawnIds source' measurer labels shapes s').length := by
  induction shapes generalizing s s' with
  | nil => rfl
  | cons shape shapes ih =>
    rw [drawnIds_cons] at hkeys hkeys' ⊢
    rw [drawnIds_cons]
    obtain ⟨hfirst, hrest⟩ := List.forall_mem_append.mp hkeys
    obtain ⟨hfirst', hrest'⟩ := List.forall_mem_append.mp hkeys'
    rw [List.length_append, List.length_append, Label.length_drawnFor hfirst hfirst',
      ih hrest hrest']

/-- Two runs make the same blocks. -/
theorem sameBlocks_materialize {ρ : String → String}
    (hkeys : Label.NoKeys labels (drawnIds source measurer labels shapes s))
    (hkeys' : Label.NoKeys labels (drawnIds source' measurer labels shapes s'))
    (hkept : ∀ shape ∈ shapes, shape.KeptBy ρ)
    (hmap : (drawnIds source measurer labels shapes s).map ρ =
      drawnIds source' measurer labels shapes s') :
    ∃ blocks blocks',
      (materialize source measurer labels shapes s).1 = blocks.flatten ∧
      (materialize source' measurer labels shapes s').1 = blocks'.flatten ∧
      Label.Blocks source labels shapes s blocks (materialize source measurer labels shapes s).2 ∧
      Label.Blocks source' labels shapes s' blocks'
        (materialize source' measurer labels shapes s').2 ∧
      List.Forall₂ (Label.SameBlock ρ) blocks blocks' := by
  induction shapes generalizing s s' with
  | nil => exact ⟨[], [], rfl, rfl, .nil s, .nil s', .nil⟩
  | cons shape shapes ih =>
    rw [drawnIds_cons] at hkeys hkeys'
    rw [drawnIds_cons, drawnIds_cons, List.map_append] at hmap
    obtain ⟨hfirst, hrest⟩ := List.forall_mem_append.mp hkeys
    obtain ⟨hfirst', hrest'⟩ := List.forall_mem_append.mp hkeys'
    obtain ⟨hshape, hshapes⟩ := List.forall_mem_cons.mp hkept
    have hlength : ((Label.drawnFor source labels shape s).map ρ).length =
        (Label.drawnFor source' labels shape s').length := by
      rw [List.length_map, Label.length_drawnFor hfirst hfirst']
    obtain ⟨hmapFirst, hmapRest⟩ := List.append_inj hmap hlength
    obtain ⟨blocks, blocks', hflat, hflat', hblocks, hblocks', hsame⟩ :=
      ih hrest hrest' hshapes hmapRest
    refine ⟨(Label.block source measurer labels shape s).1 :: blocks,
      (Label.block source' measurer labels shape s').1 :: blocks', ?_, ?_,
      .cons (Label.isBlock_block source measurer labels shape s) hblocks,
      .cons (Label.isBlock_block source' measurer labels shape s') hblocks',
      .cons (Label.sameBlock_block hfirst hfirst' hshape hmapFirst) hsame⟩
    · rw [List.flatten_cons, ← hflat]
      rfl
    · rw [List.flatten_cons, ← hflat']
      rfl

end TwoRuns

/-! ### The drawings of two runs -/

/-- Scenes with elements that look the same are drawn alike. -/
theorem Svg.alike_of_looks (painter : Measurer Float) (standalone : Bool) (scene : Scene)
    {elements elements' : List (Element Float)}
    (h : elements.map Element.looks = elements'.map Element.looks) :
    (Svg.document painter standalone { scene with elements := elements }).Alike
      (Svg.document painter standalone { scene with elements := elements' }) := by
  have hvisible (es : List (Element Float)) :
      (Svg.visible es).map Element.looks = Svg.visible (es.map Element.looks) := by
    unfold Svg.visible
    rw [List.filter_map]
    rfl
  obtain ⟨hroot, harea⟩ :=
    Svg.document_visible_looks painter standalone { scene with elements := elements }
  obtain ⟨hroot', harea'⟩ :=
    Svg.document_visible_looks painter standalone { scene with elements := elements' }
  dsimp only at hroot harea hroot' harea'
  rw [hvisible, h, ← hvisible] at hroot harea
  exact ⟨congrArg Node.render (hroot.symm.trans hroot'), harea.symm.trans harea'⟩

/-- What materialization makes of shapes does not depend on the ids that it draws, if these are not
in use: the elements that come out of two runs are the same block by block when the ids of the first
run are renamed to those of the second, but for the nonces and the times of the texts, and scenes
that differ in these elements alone are drawn alike. -/
theorem materialize_renamed (source : IdSource σ) (source' : IdSource σ')
    (measurer : Measurer Float) (labels : ClassLabels) (shapes : List (Element Float)) (s : σ)
    (s' : σ') (hunused : Unused labels shapes (drawnIds source measurer labels shapes s))
    (hunused' : Unused labels shapes (drawnIds source' measurer labels shapes s')) :
    let ρ := rename (drawnIds source measurer labels shapes s)
      (drawnIds source' measurer labels shapes s')
    (drawnIds source measurer labels shapes s).map ρ =
        drawnIds source' measurer labels shapes s' ∧
      (∃ blocks blocks',
        (materialize source measurer labels shapes s).1 = blocks.flatten ∧
        (materialize source' measurer labels shapes s').1 = blocks'.flatten ∧
        Label.Blocks source labels shapes s blocks
          (materialize source measurer labels shapes s).2 ∧
        Label.Blocks source' labels shapes s' blocks'
          (materialize source' measurer labels shapes s').2 ∧
        List.Forall₂ (Label.SameBlock ρ) blocks blocks') ∧
      ∀ (painter : Measurer Float) (standalone : Bool) (scene : Scene),
        (Svg.document painter standalone
          { scene with elements := (materialize source measurer labels shapes s).1 }).Alike
        (Svg.document painter standalone
          { scene with elements := (materialize source' measurer labels shapes s').1 }) := by
  intro ρ
  have hlength := length_drawnIds hunused.noKeys hunused'.noKeys
  have hmap := map_rename hunused.nodup hlength
  have hblocks := sameBlocks_materialize hunused.noKeys hunused'.noKeys
    (hunused.keptBy (drawnIds source' measurer labels shapes s')) hmap
  refine ⟨hmap, hblocks, fun painter standalone scene => ?_⟩
  obtain ⟨blocks, blocks', hflat, hflat', -, -, hsame⟩ := hblocks
  apply Svg.alike_of_looks painter standalone scene
  rw [hflat, hflat']
  exact Label.map_looks_flatten hsame

/-! ### Two runs over tied shapes -/

/-- Ids that grow by a digit with each draw, with other nonces and another time. -/
def digitSource : IdSource Nat where
  nextId n := (String.ofList (List.replicate (n + 1) '0'), n + 1)
  nextNonce n := (8, n)
  now n := (43, n)

/-- The ids that are drawn from letters are not in use. -/
theorem unused_letterSource : Unused [("a", "A")] tiedShapes
    (drawnIds letterSource Measurer.default [("a", "A")] tiedShapes 0) := by
  rw [drawnIds_tiedShapes]
  exact ⟨by decide, by decide, by decide, by decide, by decide⟩

/-- The ids that are drawn from digits are not in use. -/
theorem unused_digitSource : Unused [("a", "A")] tiedShapes
    (drawnIds digitSource Measurer.default [("a", "A")] tiedShapes 0) := by
  have hdrawn : drawnIds digitSource Measurer.default [("a", "A")] tiedShapes 0 =
      ["0", "00", "000"] := by
    decide
  rw [hdrawn]
  exact ⟨by decide, by decide, by decide, by decide, by decide⟩

/-- The tied shapes are drawn alike with names of letters and with names of digits. -/
theorem alike_letterSource_digitSource :
    Unused [("a", "A")] tiedShapes
        (drawnIds letterSource Measurer.default [("a", "A")] tiedShapes 0) ∧
      Unused [("a", "A")] tiedShapes
        (drawnIds digitSource Measurer.default [("a", "A")] tiedShapes 0) ∧
      (Svg.document Measurer.default true { Scene.empty with
        elements := (materialize letterSource Measurer.default [("a", "A")] tiedShapes 0).1 }).Alike
      (Svg.document Measurer.default true { Scene.empty with
        elements := (materialize digitSource Measurer.default [("a", "A")] tiedShapes 0).1 }) :=
  ⟨unused_letterSource, unused_digitSource,
    (materialize_renamed letterSource digitSource Measurer.default [("a", "A")] tiedShapes 0 0
      unused_letterSource unused_digitSource).2.2 Measurer.default true Scene.empty⟩

end DiagramScene
