import Mathlib
import DiagramScene.Dsl.Compile
import DiagramScene.Proofs.Dsl.Passes
import DiagramScene.Proofs.Json.Schema
import DiagramScene.Proofs.Reports

/-!
# Which documents compile

`Document.problems` lists all that is wrong with a document, in the order in which compiling looks
for it: the grid, then the shapes and the texts, then the arrows.  The arrows are checked against
`Document.targetIds`, the ids that the other items have once the missing ones are numbered.

Every function of the compiler `Reports` the problems of what it is given: it fails with the first
of them, and if there is none, it succeeds with a result that has a property.  Two steps one after
the other report the problems of the first and then those of the second (`Reports.bind`), so the
lists of problems are put together along the two passes.  The main statement is
`compile_eq_ok_iff_valid`.
-/

namespace DiagramScene.Dsl

variable {α : Type}

/-! ### Problems -/

namespace Item

/-- The preset that an item names.  Texts have a style of their own. -/
def preset? : Item α → Option String
  | shape _ spec => spec.common.style
  | text _ => none
  | arrow spec => spec.common.style

/-- What an item becomes: a shape an element of its kind, a text a text and an arrow an arrow. -/
def Becomes : Item α → ElementKind α → Prop
  | shape .box _, kind => kind = .rectangle
  | shape .ellipse _, kind => kind = .ellipse
  | shape .diamond _, kind => kind = .diamond
  | text spec, kind => ∃ content, kind = .text content ∧ content.text = spec.text
  | arrow _, kind => ∃ path, kind = .arrow path

/-- The element is what the item becomes, and has the id that the item states. -/
structure Realizes (item : Item α) (e : Element α) : Prop where
  kind : item.Becomes e.kind
  id : ∀ id, item.common.id = some id → e.id = id

end Item

/-- A preset that is named and does not exist. -/
def missingPreset (presets : Keyed (StyleOverrides α)) : Option String → List CompileError
  | none => []
  | some name => if name ∈ Keyed.keys presets then [] else [.unknownStyle name]

/-- A reference to an element that does not exist. -/
def missingReference (ids : List String) (e : Endpoint) : List CompileError :=
  if e.reference ∈ ids then [] else [.unknownReference e.reference]

/-- What is wrong with an item other than an arrow. -/
def targetProblems (presets : Keyed (StyleOverrides α)) : Item α → List CompileError
  | .shape _ spec => missingPreset presets spec.common.style
  | .text spec => if spec.text = "" then [.emptyText] else []
  | .arrow _ => []

/-- What is wrong with an arrow between elements with the given ids. -/
def arrowProblems (presets : Keyed (StyleOverrides α)) (ids : List String) :
    Item α → List CompileError
  | .arrow spec => missingReference ids spec.start ++
      (missingReference ids spec.finish ++ missingPreset presets spec.common.style)
  | _ => []

/-- The ids of the items other than arrows, if numbers are given from `next` on: one for an id that
is not stated, and one for the stamp of each element. -/
def targetIdsFrom : Nat → List (Item α) → List String
  | _, [] => []
  | next, item :: items =>
    if item.isArrow then targetIdsFrom next items
    else match item.common.id with
      | some id => id :: targetIdsFrom (next + 1) items
      | none => s!"{item.typeName}-{next}" :: targetIdsFrom (next + 2) items

namespace Document

/-- The ids to which the arrows of a document can refer. -/
def targetIds (doc : Document α) : List String := targetIdsFrom 1 doc.items

/-- All that is wrong with a document, in the order of the checks. -/
def problems [Scalar α] (doc : Document α) : List CompileError :=
  (if isUsableGrid doc.gridDistance then [] else [.invalidGrid]) ++
    (doc.items.flatMap (targetProblems doc.styles) ++
      doc.items.flatMap (arrowProblems doc.styles doc.targetIds))

/-- Nothing is wrong with a document. -/
structure Valid [Scalar α] (doc : Document α) : Prop where
  /-- A grid that is stated is a number, and not a negative one. -/
  grid : ∀ g, doc.grid = some g → Scalar.isFinite g = true ∧ Scalar.lt g 0.0 = false
  /-- The presets that items name exist. -/
  presets : ∀ item ∈ doc.items, ∀ name, item.preset? = some name → name ∈ Keyed.keys doc.styles
  /-- The texts are not empty. -/
  texts : ∀ spec, .text spec ∈ doc.items → spec.text ≠ ""
  /-- The arrows refer to ids of other items, wherever these stand. -/
  references : ∀ spec, .arrow spec ∈ doc.items →
    spec.start.reference ∈ doc.targetIds ∧ spec.finish.reference ∈ doc.targetIds

end Document

/-- A preset that is named is missing unless it exists. -/
theorem missingPreset_eq_nil_iff {presets : Keyed (StyleOverrides α)} {preset? : Option String} :
    missingPreset presets preset? = [] ↔
      ∀ name, preset? = some name → name ∈ Keyed.keys presets := by
  cases preset? with
  | none => exact ⟨fun _ => nofun, fun _ => rfl⟩
  | some name => simp [missingPreset]

/-- An id that is referred to is missing unless it exists. -/
theorem missingReference_eq_nil_iff {ids : List String} {e : Endpoint} :
    missingReference ids e = [] ↔ e.reference ∈ ids := by
  simp [missingReference]

/-! ### The first pass -/

/-- What the first pass does for an item other than an arrow: the element is noted under its id, and
the ids of the items behind it are counted on from there. -/
structure Notes (item : Item α) (p : Progress α) (e : Element α) (p' : Progress α) : Prop where
  realizes : item.Realizes e
  not_arrow : item.isArrow = false
  mem_keys : ∀ id, id ∈ Keyed.keys p'.boxes ↔ id ∈ Keyed.keys p.boxes ∨ id = e.id
  ids : ∀ items, targetIdsFrom p.counter.next (item :: items) =
    e.id :: targetIdsFrom p'.counter.next items

/-- An id that is stated is taken, and a number is used up for one that is not. -/
theorem targetIdsFrom_cons {item : Item α} (h : item.isArrow = false) (p : Progress α)
    (items : List (Item α)) : targetIdsFrom p.counter.next (item :: items) =
      (p.idFor item.common item.typeName).1 ::
        targetIdsFrom ((p.idFor item.common item.typeName).2.counter.next + 1) items := by
  rw [targetIdsFrom, h, if_neg Bool.false_ne_true, Progress.idFor]
  cases item.common.id with
  | none => rfl
  | some id => rfl

/-- What the first pass makes of items: an element for each of them but the arrows, which wait. -/
inductive FirstPass : List (Item α) → List (Item α × Option (Element α)) → Progress α →
    Progress α → Prop
  | nil (p : Progress α) : FirstPass [] [] p p
  | target {item : Item α} {items : List (Item α)} {e : Element α}
    {made : List (Item α × Option (Element α))} {p p₁ p₂ : Progress α} (first : Notes item p e p₁)
    (rest : FirstPass items made p₁ p₂) : FirstPass (item :: items) ((item, some e) :: made) p p₂
  | arrow (spec : ArrowSpec α) {items : List (Item α)} {made : List (Item α × Option (Element α))}
    {p p' : Progress α} (rest : FirstPass items made p p') :
    FirstPass (.arrow spec :: items) ((.arrow spec, none) :: made) p p'

/-- After the first pass the boxes of all items but the arrows are noted. -/
theorem FirstPass.mem_keys {items : List (Item α)} {made : List (Item α × Option (Element α))}
    {p p' : Progress α} (h : FirstPass items made p p') (id : String) :
    id ∈ Keyed.keys p'.boxes ↔
      id ∈ Keyed.keys p.boxes ∨ id ∈ targetIdsFrom p.counter.next items := by
  induction h with
  | nil p => simp [targetIdsFrom]
  | target first _ ih => rw [ih, first.mem_keys, first.ids, List.mem_cons, or_assoc]
  | arrow spec _ ih => exact ih

/-! ### Items -/

/-- The overrides of an item are laid over any style. -/
theorem reports_overlay (style : Style α) (overrides? : Option (StyleOverrides α)) :
    Reports (fun _ => True) ([] : List CompileError)
      (match overrides? with
        | none => .ok style
        | some overrides => .ok (style.overlay overrides)) := by
  cases overrides? with
  | none => exact .ok True.intro
  | some overrides => exact .ok True.intro

variable [Scalar α]

/-- The style of an item is found unless it names a preset that does not exist. -/
theorem reports_style (presets : Keyed (StyleOverrides α)) (common : Common α) :
    Reports (fun _ => True) (missingPreset presets common.style) (Style.of presets common) := by
  unfold Style.of missingPreset
  cases common.style with
  | none => exact reports_overlay _ _
  | some name =>
    dsimp only
    split
    · rename_i hname
      obtain ⟨preset, hpreset⟩ := Keyed.mem_keys_iff.mp hname
      rw [hpreset]
      exact reports_overlay _ _
    · rename_i hname
      rw [Keyed.get?_eq_none_iff.mpr hname]
      exact .error _ _

/-- An element that has the id of an item and is what the item becomes is stamped and noted. -/
theorem notes_stamp (item : Item α) (hitem : item.isArrow = false) {p q : Progress α}
    {e : Element α} (hq : q = (p.idFor item.common item.typeName).2)
    (hid : e.id = (p.idFor item.common item.typeName).1) (hkind : item.Becomes e.kind) :
    Notes item p (q.stamp e).1 ((q.stamp e).2.note (q.stamp e).1) := by
  refine ⟨⟨hkind, fun id h => hid.trans (idFor_eq h _)⟩, hitem, fun id => ?_, fun items => ?_⟩
  · change id ∈ Keyed.keys (Keyed.put q.boxes e.id _) ↔ id ∈ Keyed.keys p.boxes ∨ id = e.id
    rw [Keyed.keys_put, hq, boxes_idFor]
    by_cases hmem : e.id ∈ Keyed.keys p.boxes
    · rw [if_pos hmem]
      exact ⟨.inl, fun h => h.elim (fun h => h) fun heq => heq ▸ hmem⟩
    · rw [if_neg hmem, List.mem_append, List.mem_singleton]
  · rw [targetIdsFrom_cons hitem, ← hid, ← hq]
    rfl

/-- A shape is compiled unless it names a preset that does not exist. -/
theorem reports_compileShape (settings : Settings α) (kind : ShapeKind) (spec : ShapeSpec α)
    (p : Progress α) : Reports (fun made => Notes (.shape kind spec) p made.1 made.2)
      (targetProblems settings.presets (.shape kind spec)) (compileShape settings kind spec p) := by
  refine (reports_style settings.presets spec.common).bind_ok fun style _ => .ok ?_
  refine notes_stamp (.shape kind spec) rfl rfl rfl ?_
  cases kind with
  | box => rfl
  | ellipse => rfl
  | diamond => rfl

/-- A text is compiled unless it is empty. -/
theorem reports_compileText (settings : Settings α) (spec : TextSpec α) (p : Progress α) :
    Reports (fun made => Notes (.text spec) p made.1 made.2)
      (targetProblems settings.presets (.text spec)) (compileText settings spec p) := by
  simp only [compileText, targetProblems, String.isEmpty_iff]
  by_cases htext : spec.text = ""
  · rw [if_pos htext, if_pos htext]
    exact .error _ _
  · rw [if_neg htext, if_neg htext]
    exact .ok (notes_stamp (.text spec) rfl rfl rfl ⟨_, rfl, rfl⟩)

/-- An end of an arrow is found unless no box is noted under its id. -/
theorem reports_endpoint {p : Progress α} {ids : List String}
    (hids : ∀ id, id ∈ Keyed.keys p.boxes ↔ id ∈ ids) (e : Endpoint) :
    Reports (fun _ => True) (missingReference ids e) (endpoint p e) := by
  unfold missingReference endpoint
  split
  · rename_i href
    obtain ⟨box, hbox⟩ := Keyed.mem_keys_iff.mp ((hids _).mpr href)
    rw [hbox]
    exact .ok True.intro
  · rename_i href
    rw [Keyed.get?_eq_none_iff.mpr fun h => href ((hids _).mp h)]
    exact .error _ _

/-- An arrow is compiled unless it refers to ids or names a preset that do not exist. -/
theorem reports_compileArrow (settings : Settings α) {p : Progress α} {ids : List String}
    (hids : ∀ id, id ∈ Keyed.keys p.boxes ↔ id ∈ ids) (spec : ArrowSpec α) :
    Reports (fun made => (Item.arrow spec).Realizes made.1 ∧ made.2.boxes = p.boxes)
      (arrowProblems settings.presets ids (.arrow spec)) (compileArrow settings spec p) := by
  have hids' : ∀ id, id ∈ Keyed.keys (p.idFor spec.common "arrow").2.boxes ↔ id ∈ ids := by
    rwa [boxes_idFor]
  refine (reports_endpoint hids' spec.start).bind fun start _ => ?_
  refine (reports_endpoint hids' spec.finish).bind fun finish _ => ?_
  refine (reports_style settings.presets spec.common).bind_ok fun style _ => .ok ?_
  exact ⟨⟨⟨_, rfl⟩, fun id h => idFor_eq h _⟩, boxes_idFor p spec.common "arrow"⟩

/-! ### Passes -/

/-- An element for the first item comes before what the pass makes of the others. -/
theorem reports_target {settings : Settings α} {item : Item α} {items : List (Item α)}
    {p : Progress α} {outcome : Except CompileError (Element α × Progress α)}
    (h : Reports (fun made => Notes item p made.1 made.2) (targetProblems settings.presets item)
      outcome)
    (hrest : ∀ p, Reports (fun made => FirstPass items made.1 p made.2)
      (items.flatMap (targetProblems settings.presets)) (compileShapes settings items p)) :
    Reports (fun made => FirstPass (item :: items) made.1 p made.2)
      ((item :: items).flatMap (targetProblems settings.presets))
      ((outcome.map fun first => (some first.1, first.2)) >>= fun first =>
        compileShapes settings items first.2 >>= fun rest =>
          .ok ((item, first.1) :: rest.1, rest.2)) := by
  rw [List.flatMap_cons]
  have hfirst := h.map (Q := fun first => ∃ e, first.1 = some e ∧ Notes item p e first.2)
    (f := fun first => (some first.1, first.2)) fun first h => ⟨_, rfl, h⟩
  refine hfirst.bind fun first hfirst => ?_
  obtain ⟨e, he, hnotes⟩ := hfirst
  refine (hrest first.2).bind_ok fun rest hrest => ?_
  rw [he]
  exact .ok (.target hnotes hrest)

/-- The first pass reports the problems of the items other than arrows. -/
theorem reports_compileShapes (settings : Settings α) (items : List (Item α)) (p : Progress α) :
    Reports (fun made => FirstPass items made.1 p made.2)
      (items.flatMap (targetProblems settings.presets)) (compileShapes settings items p) := by
  induction items generalizing p with
  | nil => exact .ok (.nil p)
  | cons item items ih =>
    cases item with
    | shape kind spec => exact reports_target (reports_compileShape settings kind spec p) ih
    | text spec => exact reports_target (reports_compileText settings spec p) ih
    | arrow spec => exact (ih p).bind_ok fun rest hrest => .ok (.arrow spec hrest)

/-- What the second pass has in its hands: an element for each item, in order, of which those that
are no arrows have the given ids. -/
structure Compiled (items : List (Item α)) (ids : List String) (es : List (Element α)) : Prop where
  realizes : List.Forall₂ Item.Realizes items es
  ids : ((items.zip es).filter fun made => !made.1.isArrow).map (·.2.id) = ids

/-- The second pass reports the problems of the arrows. -/
theorem reports_compileArrows (settings : Settings α) {items : List (Item α)}
    {made : List (Item α × Option (Element α))} {p₀ p₁ : Progress α}
    (h : FirstPass items made p₀ p₁) {p : Progress α} {ids : List String}
    (hids : ∀ id, id ∈ Keyed.keys p.boxes ↔ id ∈ ids) :
    Reports (Compiled items (targetIdsFrom p₀.counter.next items))
      (items.flatMap (arrowProblems settings.presets ids)) (compileArrows settings made p) := by
  induction h generalizing p with
  | nil p => exact .ok ⟨.nil, rfl⟩
  | @target item items e made p₀ p₁ p₂ first _ ih =>
    have hnone : arrowProblems settings.presets ids item = [] := by
      cases item with
      | shape kind spec => rfl
      | text spec => rfl
      | arrow spec => exact nomatch first.not_arrow
    rw [List.flatMap_cons, hnone, List.nil_append]
    rw [compileArrows_target]
    refine (ih hids).bind_ok fun es hes => .ok ⟨.cons first.realizes hes.realizes, ?_⟩
    rw [first.ids, ← hes.ids]
    simp [first.not_arrow]
  | arrow spec _ ih =>
    rw [List.flatMap_cons]
    refine (reports_compileArrow settings hids spec).bind fun first hfirst => ?_
    obtain ⟨hrealizes, hboxes⟩ := hfirst
    have hids' : ∀ id, id ∈ Keyed.keys first.2.boxes ↔ id ∈ ids := by rwa [hboxes]
    refine (ih hids').bind_ok fun es hes => .ok ⟨.cons hrealizes hes.realizes, ?_⟩
    exact hes.ids

/-! ### Documents -/

/-- Compiling reports the problems of the document. -/
theorem reports_compile (doc : Document α) (start : Int64) :
    Reports (Compiled doc.items doc.targetIds) doc.problems (doc.compile start) := by
  let settings : Settings α := ⟨doc.gridDistance, doc.styles, doc.fitText⟩
  unfold Document.compile Document.problems
  cases Document.isUsableGrid doc.gridDistance with
  | true =>
    simp only [reduceIte, Bool.not_true, Bool.false_eq_true, List.nil_append]
    refine (reports_compileShapes settings doc.items _).bind fun made hmade => ?_
    refine reports_compileArrows settings hmade fun id => ?_
    rw [hmade.mem_keys]
    exact or_iff_right List.not_mem_nil
  | false => exact .error _ _

/-- A document without problems is one with which nothing is wrong. -/
theorem problems_eq_nil_iff {doc : Document Float} : doc.problems = [] ↔ doc.Valid := by
  have hgrid : Document.isUsableGrid doc.gridDistance = true ↔
      ∀ g, doc.grid = some g → Scalar.isFinite g = true ∧ Scalar.lt g 0.0 = false := by
    unfold Document.gridDistance Document.isUsableGrid
    cases doc.grid with
    | none => exact ⟨fun _ => nofun, fun _ => by decide⟩
    | some g => simp
  simp only [Document.problems, List.append_eq_nil_iff, List.flatMap_eq_nil_iff]
  constructor
  · rintro ⟨h, htargets, harrows⟩
    refine ⟨hgrid.mp (by simpa using h), fun item hitem => ?_, fun spec hspec => ?_, ?_⟩
    · cases item with
      | shape kind spec => exact missingPreset_eq_nil_iff.mp (htargets _ hitem)
      | text spec => exact nofun
      | arrow spec =>
        have harrow := harrows _ hitem
        simp only [arrowProblems, List.append_eq_nil_iff] at harrow
        exact missingPreset_eq_nil_iff.mp harrow.2.2
    · simpa [targetProblems] using htargets _ hspec
    · intro spec hspec
      have harrow := harrows _ hspec
      simp only [arrowProblems, List.append_eq_nil_iff, missingReference_eq_nil_iff] at harrow
      exact ⟨harrow.1, harrow.2.1⟩
  · intro h
    refine ⟨by simpa using hgrid.mpr h.grid, fun item hitem => ?_, fun item hitem => ?_⟩
    · cases item with
      | shape kind spec => exact missingPreset_eq_nil_iff.mpr (h.presets _ hitem)
      | text spec => simpa [targetProblems] using h.texts _ hitem
      | arrow spec => rfl
    · cases item with
      | shape kind spec => rfl
      | text spec => rfl
      | arrow spec =>
        obtain ⟨hstart, hfinish⟩ := h.references _ hitem
        simp only [arrowProblems, List.append_eq_nil_iff, missingReference_eq_nil_iff]
        exact ⟨hstart, hfinish, missingPreset_eq_nil_iff.mpr (h.presets _ hitem)⟩

/-- Reading a field that leaves the grid alone keeps it finite. -/
theorem keeps_readField {β : Type} {key : String} {absence : Json.Absence}
    {decode : Json → Json.Decoded β} {set : β → Document Float → Document Float}
    (hset : ∀ b doc, (set b doc).grid = doc.grid) :
    (Document.readField key absence decode set).Keeps
      fun doc => ∀ g ∈ doc.grid, g.isFinite = true where
  read := by
    intro j doc doc' _ hdoc h
    obtain ⟨b, _, rfl⟩ := Json.decoded_map_eq_ok.mp h
    rwa [hset b doc]

/-- The grid of a document that was read is a finite number, if it is stated. -/
theorem maintains_grid :
    Document.schema.Maintains fun doc => ∀ g ∈ doc.grid, g.isFinite = true where
  start := by
    rintro g ⟨⟩
    decide
  fields := by
    have hgrid (o : Option Float) (doc : Document Float) (ho : ∀ g ∈ o, g.isFinite = true)
        (_ : ∀ g ∈ doc.grid, g.isFinite = true) : ∀ g ∈ o, g.isFinite = true := ho
    simp only [Document.schema, List.forall_mem_cons]
    exact ⟨.of_read (fun _ _ => rfl) Json.Codec.float_lawful.option hgrid,
      keeps_readField fun _ _ => rfl, keeps_readField fun _ _ => rfl,
      keeps_readField fun _ _ => rfl, nofun⟩
  unknown := nofun

/-- A document compiles exactly when nothing is wrong with it.  Then its items become elements in
their order, and the ids of those that are no arrows are the ones to which arrows can refer.
Otherwise the first of its problems is the error.  The grid of a document that was read is finite,
so there only a negative one is wrong. -/
theorem compile_eq_ok_iff_valid (doc : Document Float) (start : Int64) :
    ((∃ es, doc.compile start = .ok es) ↔ doc.Valid) ∧
      (∀ es, doc.compile start = .ok es → List.Forall₂ Item.Realizes doc.items es ∧
        ((doc.items.zip es).filter fun made => !made.1.isArrow).map (·.2.id) = doc.targetIds) ∧
      (∀ err, doc.compile start = .error err ↔ doc.problems.head? = some err) ∧
      ∀ j : Json, j.WellFormed → Document.decode j = .ok doc →
        ∀ g, doc.grid = some g → g.isFinite = true := by
  have h := reports_compile doc start
  refine ⟨h.exists_ok_iff.trans problems_eq_nil_iff, fun es hes => ?_, h.eq_error_iff, ?_⟩
  · have hcompiled := h.of_eq_ok hes
    exact ⟨hcompiled.realizes, hcompiled.ids⟩
  · intro j hj hdecode
    exact maintains_grid.decode hj hdecode

/-! ### A document with a reference ahead -/

/-- A shape that states its id and its preset. -/
def namedBox : ShapeSpec Float := ⟨⟨some "b", some "wide", none⟩, 0.0, 0.0, 120.0, 80.0⟩

/-- A text that states nothing but what it says. -/
def plainText : TextSpec Float := { TextSpec.start with text := "note" }

/-- An arrow from the shape to the text, which gets the second number. -/
def arrowAhead : ArrowSpec Float := ⟨.empty, ⟨"b", .right⟩, ⟨"text-2", .left⟩⟩

/-- The arrow stands before the items to which it refers. -/
def crossReference : Document Float where
  grid := none
  styles := [("wide", { StyleOverrides.empty with strokeWidth := some 4.0 })]
  fitText := false
  items := [.arrow arrowAhead, .shape .box namedBox, .text plainText]

/-- Nothing is wrong with the document. -/
theorem valid_crossReference : crossReference.Valid := problems_eq_nil_iff.mp (by decide)

/-- The document compiles. -/
theorem compile_crossReference :
    crossReference.Valid ∧ ∃ es, crossReference.compile 1000 = .ok es ∧
      List.Forall₂ Item.Realizes crossReference.items es := by
  have h := compile_eq_ok_iff_valid crossReference 1000
  obtain ⟨es, hes⟩ := h.1.mpr valid_crossReference
  exact ⟨valid_crossReference, es, hes, (h.2.1 es hes).1⟩

end DiagramScene.Dsl
