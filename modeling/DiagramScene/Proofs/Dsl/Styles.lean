import Mathlib
import DiagramScene.Proofs.Dsl.Passes
import DiagramScene.Proofs.Dsl.Problems

/-!
# Layers of styles

An item sets a style attribute itself, or the preset that it names does, or else the default of its
kind counts: the uppermost layer that has a value decides (`Item.layeredStyle`).  Shapes and arrows
are compiled that way, and they do not compile if the preset does not exist.

A text is compiled without a look at its layers.  It gets the default style of texts whatever it
sets, and it may name a preset that does not exist (`forall₂_applied`).  So the layers hold for
a whole document exactly when its texts do not need them, which is `forall₂_styled_iff`.
-/

namespace DiagramScene.Dsl

variable {α : Type}

/-- The value of a style attribute in the uppermost layer that has one: what the item sets itself,
the preset that it names, the default. -/
def uppermost {β : Type} (presets : Keyed (StyleOverrides α)) (common : Common α)
    (value? : StyleOverrides α → Option β) (default : β) : β :=
  ((common.styleOverrides.bind value?).or
    ((common.style.bind presets.get?).bind value?)).getD default

/-- The layers of an item over a default style, attribute by attribute. -/
def Style.layered (presets : Keyed (StyleOverrides α)) (common : Common α) (default : Style α) :
    Style α where
  strokeColor := uppermost presets common (·.strokeColor) default.strokeColor
  backgroundColor := uppermost presets common (·.backgroundColor) default.backgroundColor
  fillStyle := uppermost presets common (·.fillStyle) default.fillStyle
  strokeWidth := uppermost presets common (·.strokeWidth) default.strokeWidth
  strokeStyle := uppermost presets common (·.strokeStyle) default.strokeStyle
  roughness := uppermost presets common (·.roughness) default.roughness
  opacity := uppermost presets common (·.opacity) default.opacity

/-- An item names no preset that does not exist. -/
def PresetExists (presets : Keyed (StyleOverrides α)) (common : Common α) : Prop :=
  ∀ name, common.style = some name → name ∈ Keyed.keys presets

/-- The layers are laid over the default one after the other. -/
theorem Style.layered_eq_overlay (presets : Keyed (StyleOverrides α)) (common : Common α)
    (default : Style α) :
    Style.layered presets common default =
      let base := (common.style.bind presets.get?).elim default default.overlay
      common.styleOverrides.elim base base.overlay := by
  unfold Style.layered uppermost
  cases common.style.bind presets.get? with
  | none =>
    cases common.styleOverrides with
    | none => rfl
    | some overrides => simp only [Option.bind_some, Option.bind_none, Option.or_none]; rfl
  | some preset =>
    cases common.styleOverrides with
    | none => rfl
    | some overrides => simp only [Option.bind_some, Option.getD_or]; rfl

/-- What an item sets itself is laid over a style. -/
theorem eq_elim_overlay {base style : Style α} {overrides? : Option (StyleOverrides α)}
    (h : (match overrides? with
      | none => .ok base
      | some overrides => .ok (base.overlay overrides) : Except CompileError (Style α)) =
        .ok style) :
    style = overrides?.elim base base.overlay := by
  cases overrides? with
  | none => exact (Except.ok.inj h).symm
  | some overrides => exact (Except.ok.inj h).symm

variable [Scalar α]

namespace Item

/-- The style of an item of the kind that sets nothing. -/
def defaultStyle : Item α → Style α
  | shape _ _ => .shapeDefault
  | text _ => .textDefault
  | arrow _ => .shapeDefault

/-- The style that an item describes with its layers. -/
def layeredStyle (presets : Keyed (StyleOverrides α)) (item : Item α) : Style α :=
  .layered presets item.common item.defaultStyle

/-- The style that an item gets. -/
def appliedStyle (presets : Keyed (StyleOverrides α)) : Item α → Style α
  | text _ => .textDefault
  | item => item.layeredStyle presets

end Item

/-- What compiling does with the layers of an item. -/
structure Applied (presets : Keyed (StyleOverrides α)) (item : Item α) (e : Element α) : Prop where
  preset : ∀ name, item.preset? = some name → name ∈ Keyed.keys presets
  style : styleOf e = item.appliedStyle presets

/-- The layers of an item hold for its element, and the preset that the item names exists. -/
structure Styled (presets : Keyed (StyleOverrides α)) (item : Item α) (e : Element α) : Prop where
  preset : PresetExists presets item.common
  style : styleOf e = item.layeredStyle presets

/-- A text describes no style but the default one, and the preset that it names exists. -/
structure NeedsNoLayers (presets : Keyed (StyleOverrides α)) (spec : TextSpec α) : Prop where
  preset : PresetExists presets spec.common
  style : (Item.text spec).layeredStyle presets = Style.textDefault

/-! ### Items -/

/-- The style of an item that is no text is put together from its layers. -/
theorem Style.of_eq_ok {presets : Keyed (StyleOverrides α)} {common : Common α} {style : Style α}
    (h : Style.of presets common = .ok style) :
    PresetExists presets common ∧ style = .layered presets common .shapeDefault := by
  rw [Style.layered_eq_overlay]
  unfold Style.of at h
  cases hname : common.style with
  | none =>
    rw [hname] at h
    constructor
    · intro name hstyle
      cases hname.symm.trans hstyle
    · exact eq_elim_overlay h
  | some name =>
    rw [hname] at h
    cases hget : presets.get? name with
    | none =>
      simp only [hget] at h
      cases h
    | some preset =>
      simp only [hget] at h
      constructor
      · intro name' hstyle
        obtain rfl := Option.some.inj (hname.symm.trans hstyle)
        exact Keyed.mem_keys_iff.mpr ⟨preset, hget⟩
      · rw [Option.bind_some, hget]
        exact eq_elim_overlay h

/-- What is done with the layers of an item of which an element is made. -/
theorem MadeOf.applied {settings : Settings α} {boxes : Keyed (Box α)} {item : Item α}
    {e : Element α} (h : MadeOf settings boxes item e) : Applied settings.presets item e := by
  obtain ⟨p, p', h, -⟩ := h
  cases item with
  | shape kind spec =>
    obtain ⟨hpreset, hstyle⟩ := Style.of_eq_ok (compileShape_eq_ok h).1.style
    exact ⟨hpreset, hstyle⟩
  | text spec => exact ⟨nofun, (compileText_eq_ok h).1.style⟩
  | arrow spec =>
    obtain ⟨box, box', -, -, hmade⟩ := (compileArrow_eq_ok h).1
    obtain ⟨hpreset, hstyle⟩ := Style.of_eq_ok hmade.style
    exact ⟨hpreset, hstyle⟩

/-- The layers hold for the element of an item unless this is a text that needs them. -/
theorem Applied.styled_iff {presets : Keyed (StyleOverrides α)} {item : Item α} {e : Element α}
    (h : Applied presets item e) :
    Styled presets item e ↔ ∀ spec, item = .text spec → NeedsNoLayers presets spec := by
  cases item with
  | shape kind spec =>
    constructor
    · rintro - _ ⟨⟩
    · intro _
      exact ⟨h.preset, h.style⟩
  | text spec =>
    have hstyle : styleOf e = Style.textDefault := h.style
    constructor
    · rintro hstyled _ ⟨⟩
      exact ⟨hstyled.preset, hstyled.style.symm.trans hstyle⟩
    · intro hneeds
      obtain ⟨hpreset, hdefault⟩ := hneeds spec rfl
      exact ⟨hpreset, hstyle.trans hdefault.symm⟩
  | arrow spec =>
    constructor
    · rintro - _ ⟨⟩
    · intro _
      exact ⟨h.preset, h.style⟩

/-! ### Documents -/

/-- The layers hold for the elements of items unless there is a text among them that needs them. -/
theorem styled_iff_texts {presets : Keyed (StyleOverrides α)} {items : List (Item α)}
    {es : List (Element α)} (h : List.Forall₂ (Applied presets) items es) :
    List.Forall₂ (Styled presets) items es ↔
      ∀ spec, .text spec ∈ items → NeedsNoLayers presets spec := by
  have hitems : List.Forall₂ (Styled presets) items es ↔
      ∀ item ∈ items, ∀ spec, item = .text spec → NeedsNoLayers presets spec := by
    induction h with
    | nil => simp
    | cons hfirst _ ih => rw [List.forall₂_cons, List.forall_mem_cons, hfirst.styled_iff, ih]
  constructor
  · intro hstyled spec hspec
    exact hitems.mp hstyled _ hspec spec rfl
  · intro htexts
    apply hitems.mpr
    rintro _ hitem spec rfl
    exact htexts spec hitem

/-- What is done with the layers of each item of a document. -/
theorem forall₂_applied {doc : Document α} {start : Int64} {es : List (Element α)}
    (h : doc.compile start = .ok es) : List.Forall₂ (Applied doc.styles) doc.items es :=
  (Document.forall₂_madeOf h).imp fun _ _ => MadeOf.applied

/-- A shape or an arrow of a document that compiles has the style of its layers, and its preset
exists; a text has the default style.  So the layers hold for all elements and all presets that are
named exist exactly when each text describes no style but the default one, and names no preset that
does not exist. -/
theorem forall₂_styled_iff {doc : Document α} {start : Int64} {es : List (Element α)}
    (h : doc.compile start = .ok es) :
    List.Forall₂ (Applied doc.styles) doc.items es ∧
      (List.Forall₂ (Styled doc.styles) doc.items es ↔
        ∀ spec, .text spec ∈ doc.items → NeedsNoLayers doc.styles spec) := by
  have happlied := forall₂_applied h
  exact ⟨happlied, styled_iff_texts happlied⟩

/-- The layers hold for a document whose only text sets nothing. -/
theorem styled_crossReference : ∃ es, crossReference.compile 1000 = .ok es ∧
    List.Forall₂ (Styled crossReference.styles) crossReference.items es := by
  obtain ⟨es, hes⟩ := (reports_compile crossReference 1000).exists_ok_iff.mpr (by decide)
  refine ⟨es, hes, (forall₂_styled_iff hes).2.mpr ?_⟩
  intro spec hspec
  obtain rfl : spec = plainText := by simpa [crossReference] using hspec
  constructor
  · intro name hname
    cases hname
  · rfl

/-- A document of one text, without presets. -/
def textDocument (common : Common Float) : Document Float :=
  ⟨none, [], false, [.text { plainText with common := common }]⟩

/-- A text that sets the color of its strokes. -/
def paintedText : Document Float :=
  textDocument ⟨none, none, some { StyleOverrides.empty with strokeColor := some "#ff0000" }⟩

/-- A text that names a preset. -/
def misnamedText : Document Float := textDocument ⟨none, some "loud", none⟩

/-- The color that a text sets is lost, and a text may name a preset that does not exist. -/
theorem not_styled_paintedText :
    (∃ es, paintedText.compile 1000 = .ok es ∧
      ¬ List.Forall₂ (Styled paintedText.styles) paintedText.items es) ∧
    (∃ es, misnamedText.compile 1000 = .ok es ∧
      ¬ List.Forall₂ (Styled misnamedText.styles) misnamedText.items es) := by
  constructor
  · obtain ⟨es, hes⟩ := (reports_compile paintedText 1000).exists_ok_iff.mpr (by decide)
    refine ⟨es, hes, fun hstyled => ?_⟩
    have hneeds := (styled_iff_texts (forall₂_applied hes)).mp hstyled _ (.head _)
    have hcolor : "#ff0000" = defaultStrokeColor := congrArg Style.strokeColor hneeds.style
    exact absurd hcolor (by decide)
  · obtain ⟨es, hes⟩ := (reports_compile misnamedText 1000).exists_ok_iff.mpr (by decide)
    refine ⟨es, hes, fun hstyled => ?_⟩
    have hneeds := (styled_iff_texts (forall₂_applied hes)).mp hstyled _ (.head _)
    have hpreset : "loud" ∈ Keyed.keys misnamedText.styles := hneeds.preset "loud" rfl
    exact absurd hpreset (by decide)

end DiagramScene.Dsl
