import Mathlib
import DiagramScene.Proofs.Element.RoundTrip
import DiagramScene.Proofs.Label.Blocks
import DiagramScene.Proofs.Scene.AppState
import DiagramScene.Scene.Pipeline
import DiagramScene.Service.Request

/-!
# An exported scene is a request for itself

A scene is exported as one object, and a request for a scene is one object, too.  Read as a request,
the export of a scene asks for this very scene: all its elements have ids and none has a label any
more, so that materialization has nothing left to do (`materialize_eq_self`); each of them is read
back from what it is written as (`encodable_of_mem_materialize`); and the looks of the scene and its
export options come from the same keys (`Exportable.outputParams`).

The main statement is `ofMembers_toExport`.
-/

namespace DiagramScene

variable {σ τ : Type}

/-! ### Finite numbers -/

/-- The numbers among the attributes of a kind are finite. -/
def ElementKind.Finite : ElementKind Float → Prop
  | line path | arrow path => path.Finite
  | freedraw stroke => stroke.Finite
  | text content => content.Finite
  | image picture => FinitePoint picture.scale
  | rectangle | diamond | ellipse | frame _ | magicFrame _ | embeddable | iframe | other _ => True

/-- All numbers of an element are finite. -/
structure Element.Finite (e : Element Float) : Prop where
  x : e.x.isFinite = true
  y : e.y.isFinite = true
  width : e.width.isFinite = true
  height : e.height.isFinite = true
  angle : e.angle.isFinite = true
  strokeWidth : e.strokeWidth.isFinite = true
  roughness : e.roughness.isFinite = true
  opacity : e.opacity.isFinite = true
  roundness : ∀ r ∈ e.roundness, r.Finite
  label : ∀ l ∈ e.label, ∀ x ∈ l.fontSize, x.isFinite = true
  kind : e.kind.Finite

/-! ### Elements that come out of materialization -/

namespace Label

variable {source : IdSource σ} {labels : ClassLabels}

/-- A shape that can be written still can with another id, without its label, and with other things
attached to it. -/
theorem encodable_bare {shape : Element Float} (h : shape.Encodable) (id : String)
    (bound : Option (List BoundElement)) :
    Element.Encodable { shape with id := id, label := none, boundElements := bound } where
  common := { h.common with label := nofun }
  kind := h.kind
  extra_nodup := h.extra_nodup
  extra_unknown := h.extra_unknown

/-- The text of a shape can be written if its numbers are finite. -/
theorem encodable_textElement (measurer : Measurer Float) (shape : Element Float)
    {text : String} {s : σ}
    (h : (stamped source (textElement measurer labels shape text) s).1.Finite) :
    (stamped source (textElement measurer labels shape text) s).1.Encodable where
  common := { h with label := nofun, metadata := nofun }
  kind := by
    refine ⟨h.kind, ?_⟩
    change text ≠ "" ∨ text = ""
    exact (em (text = "")).symm
  extra_nodup := List.nodup_nil
  extra_unknown := nofun

/-- The elements of the block of a shape can be written if the shape can and their numbers are
finite. -/
theorem encodable_of_mem_block {measurer : Measurer Float} {shape : Element Float} {s : σ}
    (h : shape.Encodable) : ∀ e ∈ (block source measurer labels shape s).1,
      e.Finite → e.Encodable := by
  obtain ⟨id, hnamed, _⟩ := named_eq source shape s
  intro e he hfinite
  unfold block at he
  rw [hnamed] at he
  dsimp only at he
  split at he
  · rw [List.mem_singleton.mp he]
    exact encodable_bare h id _
  · rcases List.mem_pair.mp he with rfl | rfl
    · exact encodable_bare h id _
    · exact encodable_textElement measurer _ hfinite

/-- The elements of the block of a shape have ids, if no empty id is drawn. -/
theorem IsBlock.id_ne_empty {α : Type} {shape : Element α} {s s' : σ} {block : List (Element α)}
    (h : IsBlock source labels shape s block s') (hids : ∀ s, (source.nextId s).1 ≠ "") :
    ∀ e ∈ block, e.id ≠ "" := by
  have hnamed : ∀ {id s₁}, IsNamed source shape s id s₁ → id ≠ "" := by
    intro id s₁ h
    cases h with
    | own hne => exact hne
    | drawn _ => exact hids s
  intro e he
  cases h with
  | bare named _ =>
    rw [List.mem_singleton.mp he]
    exact hnamed named
  | labeled named _ text_id _ _ _ _ _ =>
    rcases List.mem_pair.mp he with rfl | rfl
    · exact hnamed named
    · rw [text_id]
      exact hids _

/-- The elements of blocks have ids, if no empty id is drawn. -/
theorem Blocks.id_ne_empty {α : Type} {shapes : List (Element α)} {s s' : σ}
    {blocks : List (List (Element α))} (h : Blocks source labels shapes s blocks s')
    (hids : ∀ s, (source.nextId s).1 ≠ "") : ∀ e ∈ blocks.flatten, e.id ≠ "" := by
  induction h with
  | nil s => simp
  | cons hblock _ ih =>
    intro e he
    rcases List.mem_append.mp (List.flatten_cons ▸ he) with he | he
    · exact hblock.id_ne_empty hids e he
    · exact ih e he

end Label

section Materialized

variable {source : IdSource σ} {measurer : Measurer Float} {labels : ClassLabels}
  {shapes : List (Element Float)} {s : σ}

/-- The elements that come out of materialization can be written if the shapes can and their numbers
are finite. -/
theorem encodable_of_mem_materialize (h : ∀ shape ∈ shapes, shape.Encodable) :
    ∀ e ∈ (materialize source measurer labels shapes s).1, e.Finite → e.Encodable := by
  induction shapes generalizing s with
  | nil => exact fun _ he => absurd he List.not_mem_nil
  | cons shape shapes ih =>
    rw [List.forall_mem_cons] at h
    intro e he hfinite
    rcases List.mem_append.mp he with he | he
    · exact Label.encodable_of_mem_block h.1 e he hfinite
    · exact ih h.2 e he hfinite

/-- The elements that come out of materialization have ids, if no empty id is drawn, and no
labels. -/
theorem settled_of_mem_materialize (hids : ∀ s, (source.nextId s).1 ≠ "") :
    ∀ e ∈ (materialize source measurer labels shapes s).1, e.id ≠ "" ∧ e.label = none := by
  obtain ⟨blocks, hflat, hblocks⟩ := Label.exists_blocks source measurer labels shapes s
  rw [hflat]
  exact fun e he => ⟨hblocks.id_ne_empty hids e he, hblocks.label_eq_none e he⟩

/-- Materialization makes at least one element of each shape. -/
theorem materialize_ne_nil (h : shapes ≠ []) :
    (materialize source measurer labels shapes s).1 ≠ [] := by
  cases shapes with
  | nil => exact absurd rfl h
  | cons shape shapes =>
    have hblock := (Label.isBlock_block source measurer labels shape s).ne_nil
    intro hnil
    exact hblock (List.append_eq_nil_iff.mp hnil).1

/-- Elements that have ids and no labels are left as they are, and nothing is drawn for them. -/
theorem materialize_eq_self (source : IdSource σ) (measurer : Measurer Float)
    {es : List (Element Float)} (s : σ) (h : ∀ e ∈ es, e.id ≠ "" ∧ e.label = none) :
    materialize source measurer [] es s = (es, s) := by
  induction es with
  | nil => rfl
  | cons e es ih =>
    rw [List.forall_mem_cons] at h
    obtain ⟨⟨hid, hlabel⟩, hes⟩ := h
    have htext : Label.text? [] e = none := by
      rw [Label.text?_nil, Label.inlineText?, hlabel]
    have hbare : Label.bare e = e := by
      rw [Label.bare, ← hlabel]
    have hblock : Label.block source measurer [] e s = ([e], s) := by
      rw [Label.block, Label.named, if_neg (by simpa using hid)]
      dsimp only
      rw [htext, hbare]
    rw [materialize, hblock]
    simp only [ih hes, List.singleton_append]

end Materialized

/-! ### Reading the export -/

namespace Service

/-- A value that is not there, or a finite number that is admitted. -/
def Admitted (range : Range) (value : Option Float) : Prop :=
  ∀ x ∈ value, x.isFinite = true ∧ range.admits x = true

/-- The member that stands for a number, if there is one. -/
def numberMember (key : String) (value : Option Float) : Members :=
  (value.map fun x => (key, Json.finite x)).toList

/-- A number has its member under its own key alone. -/
theorem get?_numberMember (key : String) (value : Option Float) (key' : String) :
    Keyed.get? (numberMember key value) key' =
      if key' = key then value.map Json.finite else none := by
  cases value with
  | none => simp [numberMember, Keyed.get?]
  | some x =>
    by_cases h : key' = key
    · simp [numberMember, Keyed.get?, h]
    · have hne : (key' == key) = false := by simpa using h
      simp [numberMember, Keyed.get?, List.lookup_cons, h, hne]

/-- The values of a key in two maps, one behind the other. -/
theorem get?_append {β : Type} (m n : Keyed β) (key : String) :
    Keyed.get? (m ++ n) key = (Keyed.get? m key).or (Keyed.get? n key) :=
  List.lookup_append

/-- A member that is not there is read as none. -/
theorem optionalMember_of_get?_eq_none {α : Type} {read : Json → Option α}
    {error : ValidationError} {body : Members} {key : String} (h : Keyed.get? body key = none) :
    optionalMember read error body key = .ok none := by
  rw [optionalMember, present?, h]
  rfl

/-- A number that is admitted is read back from its member. -/
theorem optionalNumber_of_get?_eq {body : Members} {key : String} {range : Range}
    {value : Option Float} (h : Keyed.get? body key = value.map Json.finite)
    (hvalue : Admitted range value) : optionalNumber body key range = .ok value := by
  cases value with
  | none => exact optionalMember_of_get?_eq_none h
  | some x =>
    obtain ⟨hfinite, hadmits⟩ := hvalue x rfl
    have hjson : Json.finite x = Json.float x := if_pos hfinite
    rw [Option.map_some, hjson] at h
    have hpresent : present? body key = some (Json.float x) := by
      rw [present?, h]
      rfl
    have hread : (Json.float x).number?.filter range.admits = some x := by
      change Option.filter range.admits (some x) = some x
      rw [Option.filter_some, if_pos hadmits]
    rw [optionalNumber, optionalMember, hpresent]
    simp only [hread]

/-- The elements of a request are read back from what they are written as. -/
theorem readElements_encode {es : List (Element Float)} (h : ∀ e ∈ es, e.Encodable)
    (index : Nat) :
    SceneRequest.readElements index (es.map Element.codec.encode) = .ok es := by
  induction es generalizing index with
  | nil => rfl
  | cons e es ih =>
    rw [List.forall_mem_cons] at h
    rw [List.map_cons, SceneRequest.readElements, Element.decode_encode h.1]
    simp only [ih h.2, Except.map]

end Service

/-- The numbers that a caller asks for are such as a request may ask for. -/
structure OutputParams.InRange (params : OutputParams) : Prop where
  exportScale : Service.Admitted .positive params.exportScale
  exportPadding : Service.Admitted .nonNegative params.exportPadding
  quality : Service.Admitted .share params.quality

namespace Scene

/-- The members of the export of a scene. -/
def exportMembers (scene : Scene) : Members :=
  [("elements", .arr (scene.elements.map Element.codec.encode)),
    ("appState", .obj (AppState.schema.encodeMembers scene.appState)),
    ("files", .obj scene.files), ("mimeType", .str scene.exportOptions.mimeType)] ++
    (Service.numberMember "maxWidthOrHeight" scene.exportOptions.maxWidthOrHeight ++
    (Service.numberMember "quality" scene.exportOptions.quality ++
    (Service.numberMember "exportScale" (scene.exportOptions.dimensions.map (·.scale)) ++
    Service.numberMember "exportPadding" scene.exportOptions.exportPadding)))

/-- A scene is exported as its members. -/
theorem toExport_eq (scene : Scene) : scene.toExport = .obj scene.exportMembers := by
  simp only [toExport, exportMembers, List.append_assoc]
  rfl

/-- What the export of a scene asks for. -/
def exportRequest (scene : Scene) : Service.SceneRequest where
  elements := scene.elements
  files := scene.files
  params :=
    { OutputParams.empty with
      exportScale := scene.exportOptions.dimensions.map (·.scale)
      exportPadding := scene.exportOptions.exportPadding
      quality := scene.exportOptions.quality
      appState := some (AppState.schema.encodeMembers scene.appState) }

/-- A scene whose export is a request for itself. -/
structure Exportable (scene : Scene) : Prop where
  elements_ne : scene.elements ≠ []
  /-- The elements are read back from what they are written as. -/
  encodable : ∀ e ∈ scene.elements, e.Encodable
  /-- Materialization has nothing to do. -/
  settled : ∀ e ∈ scene.elements, e.id ≠ "" ∧ e.label = none
  appState : scene.appState.Lawful
  mimeType : scene.exportOptions.mimeType = mimePng
  /-- A greatest size is exported under another key than it is asked for. -/
  maxWidthOrHeight : scene.exportOptions.maxWidthOrHeight = none
  scale : Service.Admitted .positive (scene.exportOptions.dimensions.map (·.scale))
  padding : Service.Admitted .nonNegative scene.exportOptions.exportPadding
  quality : Service.Admitted .share scene.exportOptions.quality

variable {scene : Scene}

/-- The values of the export, each under its own key. -/
theorem get?_exportMembers (scene : Scene) (key : String) :
    Keyed.get? scene.exportMembers key =
      (Keyed.get? [("elements", Json.arr (scene.elements.map Element.codec.encode)),
          ("appState", .obj (AppState.schema.encodeMembers scene.appState)),
          ("files", .obj scene.files), ("mimeType", .str scene.exportOptions.mimeType)] key).or
        ((if key = "maxWidthOrHeight" then
            scene.exportOptions.maxWidthOrHeight.map Json.finite else none).or
        ((if key = "quality" then scene.exportOptions.quality.map Json.finite else none).or
        ((if key = "exportScale" then
            (scene.exportOptions.dimensions.map (·.scale)).map Json.finite else none).or
        (if key = "exportPadding" then
            scene.exportOptions.exportPadding.map Json.finite else none)))) := by
  simp only [exportMembers, Service.get?_append, Service.get?_numberMember]

/-- The output parameters of the export, but for the looks of the scene, are read back. -/
theorem Exportable.outputParams (h : scene.Exportable) :
    Service.outputParams scene.exportMembers =
      .ok { scene.exportRequest.params with appState := none } := by
  have hscale : Service.optionalNumber scene.exportMembers "exportScale" .positive =
      .ok (scene.exportOptions.dimensions.map (·.scale)) := by
    refine Service.optionalNumber_of_get?_eq ?_ h.scale
    rw [get?_exportMembers]
    simp [Keyed.get?, List.lookup]
  have hpadding : Service.optionalNumber scene.exportMembers "exportPadding" .nonNegative =
      .ok scene.exportOptions.exportPadding := by
    refine Service.optionalNumber_of_get?_eq ?_ h.padding
    rw [get?_exportMembers]
    simp [Keyed.get?, List.lookup]
  have hquality : Service.optionalNumber scene.exportMembers "quality" .share =
      .ok scene.exportOptions.quality := by
    refine Service.optionalNumber_of_get?_eq ?_ h.quality
    rw [get?_exportMembers]
    simp [Keyed.get?, List.lookup]
  have habsent : ∀ key ∈ ["maxSize", "backgroundColor", "darkMode"],
      Keyed.get? scene.exportMembers key = none := by
    intro key hkey
    rw [get?_exportMembers]
    fin_cases hkey <;> simp [Keyed.get?, List.lookup]
  have hmax : Service.optionalNumber scene.exportMembers "maxSize" .positive = .ok none :=
    Service.optionalMember_of_get?_eq_none (habsent _ (by simp))
  have hcolor : Service.optionalText scene.exportMembers "backgroundColor" = .ok none :=
    Service.optionalMember_of_get?_eq_none (habsent _ (by simp))
  have hdark : Service.optionalBool scene.exportMembers "darkMode" = .ok none :=
    Service.optionalMember_of_get?_eq_none (habsent _ (by simp))
  rw [Service.outputParams, hscale, hpadding, hmax, hquality, hcolor, hdark]
  rfl

/-- The export of a scene is read as a request. -/
theorem Exportable.ofMembers (h : scene.Exportable) :
    Service.SceneRequest.ofMembers scene.exportMembers = .ok scene.exportRequest := by
  have hraw : Service.SceneRequest.rawElements scene.exportMembers =
      .ok (scene.elements.map Element.codec.encode) := by
    have hget : Keyed.get? scene.exportMembers "elements" =
        some (.arr (scene.elements.map Element.codec.encode)) := rfl
    rw [Service.SceneRequest.rawElements, hget]
    cases hes : scene.elements with
    | nil => exact absurd hes h.elements_ne
    | cons e es => rfl
  have hstate : Service.optionalObject scene.exportMembers "appState" =
      .ok (some (AppState.schema.encodeMembers scene.appState)) := rfl
  have hfiles : Service.optionalObject scene.exportMembers "files" = .ok (some scene.files) := rfl
  have helements := Service.readElements_encode h.encodable 0
  simp only [Service.SceneRequest.ofMembers, bind, Except.bind, hraw, h.outputParams, hstate,
    hfiles, helements]
  rfl

/-- The request gives the scene, and nothing is drawn for it. -/
theorem Exportable.ofElements (h : scene.Exportable) (source : IdSource τ)
    (measurer : Measurer Float) (t : τ) :
    let request := scene.exportRequest
    Scene.ofElements source measurer request.elements request.files request.params t =
      (scene, t) := by
  intro request
  have helements : materialize source measurer [] request.elements t = (scene.elements, t) :=
    materialize_eq_self source measurer t h.settled
  have hstate : AppState.ofParams request.params = scene.appState :=
    AppState.ofParams_encodeMembers h.appState rfl rfl rfl
  have hoptions : ExportOptions.ofParams request.params = scene.exportOptions := by
    have hdimensions : (scene.exportOptions.dimensions.map (·.scale)).map DimensionScale.mk =
        scene.exportOptions.dimensions := by
      cases scene.exportOptions.dimensions <;> rfl
    rw [ExportOptions.ofParams]
    simp only [request, exportRequest, OutputParams.empty, hdimensions, ← h.mimeType,
      ← h.maxWidthOrHeight]
  rw [Scene.ofElements, ofLabeled, helements]
  simp only [assemble, withFiles, hstate, hoptions]
  rfl

/-! ### Scenes that were made -/

/-- A scene that was made of elements, which are given as they are or come from the layout of a
diagram. -/
inductive MadeOf (source : IdSource σ) (measurer : Measurer Float) (params : OutputParams) :
    List (Element Float) → Scene → Prop
  | ofElements (elements : List (Element Float)) (files : Members) (s : σ) :
      MadeOf source measurer params elements
        (Scene.ofElements source measurer elements files params s).1
  | ofDiagram {layout : Diagram.Layout} {text : String} {config : Option Json}
      {result : Diagram.LayoutResult} {scene : Scene} {s s' : σ} :
      layout text (Diagram.configFor config) = .ok result →
      Scene.ofDiagram source measurer layout text config params s = .ok (scene, s') →
      MadeOf source measurer params result.elements scene

variable {source : IdSource σ} {measurer : Measurer Float} {params : OutputParams}
  {elements : List (Element Float)}

/-- A scene that was made of elements is assembled from what materialization makes of them. -/
theorem MadeOf.exists_materialize (h : MadeOf source measurer params elements scene) :
    ∃ labels files s, scene = (assemble (materialize source measurer labels elements s).1
      params).withFiles files := by
  cases h with
  | ofElements _ files s => exact ⟨[], files, s, rfl⟩
  | @ofDiagram layout text config result _ s s' hlayout hscene =>
    unfold Scene.ofDiagram at hscene
    split at hscene
    · exact nomatch hscene
    · rw [hlayout] at hscene
      obtain ⟨rfl, _⟩ := Prod.mk.inj (Except.ok.inj hscene)
      exact ⟨ClassLabels.ofText text, result.files, s, rfl⟩

/-- The export of a scene that was made of elements is a request that is accepted, and the scene
that it asks for is the same one.  The elements were read, there is one at least, and no empty id is
drawn; the numbers of the scene are finite, and its output parameters are such as a request may ask
for, without a greatest size. -/
theorem ofMembers_toExport (hmade : MadeOf source measurer params elements scene)
    (hread : ∀ e ∈ elements, ∃ v, v.WellFormed ∧ Element.codec.decode v = .ok e)
    (hne : elements ≠ []) (hids : ∀ s, (source.nextId s).1 ≠ "")
    (hfinite : ∀ e ∈ scene.elements, e.Finite) (hparams : params.InRange)
    (hmax : params.maxSize = none) :
    ∃ members request, scene.toExport = .obj members ∧
      Service.SceneRequest.ofMembers members = .ok request ∧
      ∀ {τ : Type} (source' : IdSource τ) (measurer' : Measurer Float) (t : τ),
        Scene.ofElements source' measurer' request.elements request.files request.params t =
          (scene, t) := by
  obtain ⟨labels, files, s, rfl⟩ := hmade.exists_materialize
  have hencodable : ∀ e ∈ (materialize source measurer labels elements s).1, e.Encodable := by
    intro e he
    refine encodable_of_mem_materialize (fun shape hshape => ?_) e he (hfinite e he)
    obtain ⟨v, hv, hdecode⟩ := hread shape hshape
    exact Element.encodable_of_decode hv hdecode
  have hscale : (params.exportScale.map DimensionScale.mk).map (·.scale) = params.exportScale := by
    cases params.exportScale <;> rfl
  have h : Exportable ((assemble (materialize source measurer labels elements s).1
      params).withFiles files) :=
    { elements_ne := materialize_ne_nil hne
      encodable := hencodable
      settled := settled_of_mem_materialize hids
      appState := AppState.lawful_ofParams params
      mimeType := rfl
      maxWidthOrHeight := hmax
      scale := hscale ▸ hparams.exportScale
      padding := hparams.exportPadding
      quality := hparams.quality }
  exact ⟨_, _, toExport_eq _, h.ofMembers, fun source' measurer' t =>
    h.ofElements source' measurer' t⟩

/-! ### A labeled shape without an id -/

/-- A value that is read as a shape with a label and without an id. -/
def labeledValue : Json :=
  .obj [("type", .str "rectangle"), ("width", .float 100.0), ("height", .float 50.0),
    ("label", .obj [("text", .str "box")])]

/-- The shape that is read. -/
def labeledShape : Element Float :=
  { Element.ofKind .rectangle with
    width := 100.0
    height := 50.0
    label := some { InlineLabel.empty with text := "box" } }

/-- Parameters with a scale, a quality, and settings of which one is an extra one. -/
def sharpParams : OutputParams :=
  { OutputParams.empty with
    exportScale := some 2.0
    quality := some 0.5
    appState := some [("exportBackground", .bool false), ("gridSize", .int 20)] }

/-- The scene of the shape, with random ids. -/
def labeledScene : Scene :=
  (Scene.ofElements (IdSource.random 0) Measurer.default [labeledShape] [] sharpParams
    (mkStdGen 1)).1

/-- A number has as many hexadecimal digits as are asked for. -/
theorem length_hexDigits (count n : Nat) : (IdSource.hexDigits count n).length = count := by
  induction count generalizing n with
  | zero => rfl
  | succ count ih =>
    rw [IdSource.hexDigits, List.length_append, ih]
    rfl

/-- No random id is empty. -/
theorem random_nextId_ne_empty (time : Int64) (gen : StdGen) :
    ((IdSource.random time).nextId gen).1 ≠ "" := by
  intro hempty
  have hlist := congrArg String.toList hempty
  have hdigits : ((IdSource.random time).nextId gen).1.toList =
      IdSource.hexDigits IdSource.idDigits (randNat gen 0 IdSource.idMax).1 :=
    String.toList_ofList
  rw [hdigits] at hlist
  have hlength := length_hexDigits IdSource.idDigits (randNat gen 0 IdSource.idMax).1
  rw [hlist] at hlength
  exact absurd hlength (by decide)

/-- The shape is read from the value. -/
theorem decode_labeledValue :
    labeledValue.WellFormed ∧ Element.codec.decode labeledValue = .ok labeledShape := by
  refine ⟨?_, rfl⟩
  have hlabel : Json.WellFormed (.obj [("text", .str "box")]) := by
    refine .obj (by decide) ?_
    simp only [List.forall_mem_cons]
    exact ⟨.str _, nofun⟩
  have hfloat : ∀ {x : Float}, x.isFinite = true → Json.WellFormed (.float x) := fun h => .num h
  refine .obj (by decide) ?_
  simp only [List.forall_mem_cons]
  exact ⟨.str _, hfloat (by decide), hfloat (by decide), hlabel, nofun⟩

/-- The parameters are in range. -/
theorem inRange_sharpParams : sharpParams.InRange where
  exportScale := by
    rintro _ ⟨⟩
    exact ⟨by decide, by decide⟩
  exportPadding := nofun
  quality := by
    rintro _ ⟨⟩
    exact ⟨by decide, by decide⟩

/-- The numbers of the shape and of its text are finite. -/
theorem finite_labeledScene : ∀ e ∈ labeledScene.elements, e.Finite := by
  intro e he
  change e ∈ [_, _] at he
  rcases List.mem_pair.mp he with rfl | rfl
  · exact ⟨by decide, by decide, by decide, by decide, by decide, by decide, by decide, by decide,
      nofun, nofun, True.intro⟩
  · exact ⟨by decide +kernel, by decide +kernel, by decide +kernel, by decide +kernel, by decide,
      by decide, by decide, by decide, nofun, nofun, by decide, by decide, by decide⟩

/-- The export of the scene of the shape asks for this scene, with the ids that it has. -/
theorem ofMembers_labeledScene : ∃ members request, labeledScene.toExport = .obj members ∧
    Service.SceneRequest.ofMembers members = .ok request ∧
    Scene.ofElements (IdSource.random 1) Measurer.default request.elements request.files
      request.params (mkStdGen 2) = (labeledScene, mkStdGen 2) := by
  have hread : ∀ e ∈ [labeledShape], ∃ v, v.WellFormed ∧ Element.codec.decode v = .ok e := by
    intro e he
    rw [List.mem_singleton.mp he]
    exact ⟨labeledValue, decode_labeledValue⟩
  obtain ⟨members, request, hexport, haccepted, hscene⟩ :=
    ofMembers_toExport (.ofElements [labeledShape] [] (mkStdGen 1)) hread (List.cons_ne_nil _ _)
      (random_nextId_ne_empty 0) finite_labeledScene inRange_sharpParams rfl
  exact ⟨members, request, hexport, haccepted, hscene _ _ _⟩

end Scene

end DiagramScene
