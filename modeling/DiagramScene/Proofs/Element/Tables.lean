import Mathlib
import DiagramScene.Element.Codec
import DiagramScene.Proofs.Json.Schema

/-!
# The tables of element attributes are lawful

For each table of `Element.Codec` the records that can be written are named: their numbers are
finite, and the members kept beside the fields have keys of their own.  Every table reads such a
record back and reads no other.

A table of a kind, like that of the common attributes, is read from the members that are not null;
the tables inside of these are read from all that was written.
-/

namespace DiagramScene

open Json (Codec Restores KeepsApart writes_all writes_present)
open Json.Codec (float_lawful floatPair_lawful text_lawful)

/-! ### Records inside of attributes -/

/-- The value of a roundness is finite. -/
def Roundness.Finite (r : Roundness Float) : Prop := ∀ x ∈ r.value, x.isFinite = true

/-- Only finite values are read. -/
theorem Roundness.maintains : Roundness.schema.Maintains Roundness.Finite where
  start := nofun
  fields := by
    simp only [schema, List.forall_mem_cons]
    exact ⟨.required Codec.uint8_lawful fun _ _ _ h => h, .omitted float_lawful fun _ _ h _ => h,
      nofun⟩
  unknown := nofun

/-- The table of roundness is lawful. -/
theorem Roundness.lawful : Roundness.schema.codec.LawfulNonNull Roundness.Finite where
  decode_encode := by
    intro r hr
    refine Json.Schema.decodeMembers_written (by decide) ?_ ?_
    · simp only [schema, List.forall_mem_cons]
      exact ⟨fun _ => rfl, nofun, nofun⟩
    · exact .required (writes_all r) Codec.uint8_lawful True.intro <|
        .omitted (writes_all r) float_lawful hr rfl .nil
  valid_of_decode := maintains.decode
  encode_ne_null _ := nofun

/-- The table of bound elements is lawful. -/
theorem BoundElement.lawful : BoundElement.schema.codec.LawfulNonNull fun _ => True where
  decode_encode := by
    intro b _
    have hnamed : (Codec.named BoundKind.names BoundKind.name).LawfulNonNull fun _ => True :=
      Codec.named_lawful fun kind => by cases kind <;> decide
    refine Json.Schema.decodeMembers_written (by decide) ?_ ?_
    · simp only [schema, List.forall_mem_cons]
      exact ⟨fun _ => rfl, fun _ => rfl, nofun⟩
    · exact .required (writes_all b) text_lawful True.intro <|
        .required (writes_all b) hnamed True.intro .nil
  valid_of_decode _ _ := True.intro
  encode_ne_null _ := nofun

/-- The label has a finite font size, and its other members have keys of their own. -/
structure InlineLabel.Encodable (l : InlineLabel Float) : Prop where
  fontSize : ∀ x ∈ l.fontSize, x.isFinite = true
  extra_nodup : (Keyed.keys l.extra).Nodup
  extra_unknown : ∀ m ∈ l.extra, m.1 ∉ InlineLabel.schema.keys

/-- The other members of a label are kept apart. -/
theorem InlineLabel.keepsApart : KeepsApart (fun l : InlineLabel Float => l.extra)
    fun v s => { s with extra := v } where
  get_set _ _ := rfl
  set_set _ _ _ := rfl
  set_get _ := rfl

/-- Only finite font sizes are read. -/
theorem InlineLabel.maintains :
    InlineLabel.schema.Maintains fun l => ∀ x ∈ l.fontSize, x.isFinite = true where
  start := nofun
  fields := by
    simp only [schema, List.forall_mem_cons]
    exact ⟨.default text_lawful fun _ _ _ h => h, .omitted float_lawful fun _ _ h _ => h,
      .omitted text_lawful fun _ _ _ h => h, .omitted text_lawful.list fun _ _ _ h => h, nofun⟩
  unknown := by
    rintro _ _ ⟨⟩ _ _ h
    exact h

/-- The table of labels is lawful. -/
theorem InlineLabel.lawful : InlineLabel.schema.codec.LawfulNonNull InlineLabel.Encodable where
  decode_encode := by
    intro l hl
    have hrestores : Restores (fun f => f.write l) schema.fields schema.start
        { l with extra := [] } :=
      .default (writes_all l) text_lawful True.intro <|
      .omitted (writes_all l) float_lawful hl.fontSize rfl <|
      .omitted (writes_all l) text_lawful (fun _ _ => True.intro) rfl <|
      .omitted (writes_all l) text_lawful.list (fun _ _ _ _ => True.intro) rfl .nil
    refine Json.Schema.decodeMembers_written_append rfl keepsApart (by decide) ?_ hrestores
      hl.extra_unknown
    simp only [schema, List.forall_mem_cons]
    exact ⟨nofun, nofun, nofun, nofun, nofun⟩
  valid_of_decode := by
    intro j l hj h
    have hfields : ∀ ms, ∀ f ∈ schema.fields, f.Keeps fun l => l.extra = ms := by
      intro ms
      simp only [schema, List.forall_mem_cons]
      exact ⟨.default text_lawful fun _ _ _ h => h, .omitted float_lawful fun _ _ _ h => h,
        .omitted text_lawful fun _ _ _ h => h, .omitted text_lawful.list fun _ _ _ h => h, nofun⟩
    obtain ⟨hnodup, hnew⟩ := Json.Schema.kept_of_decode rfl keepsApart hfields rfl hj h
    exact ⟨maintains.decode hj h, hnodup, hnew⟩
  encode_ne_null _ := nofun

/-- The other members of the metadata have keys of their own. -/
structure Metadata.Encodable (m : Metadata) : Prop where
  extra_nodup : (Keyed.keys m.extra).Nodup
  extra_unknown : ∀ e ∈ m.extra, e.1 ∉ Metadata.schema.keys

/-- The other members of metadata are kept apart. -/
theorem Metadata.keepsApart : KeepsApart (fun m : Metadata => m.extra)
    fun v s => { s with extra := v } where
  get_set _ _ := rfl
  set_set _ _ _ := rfl
  set_get _ := rfl

/-- The table of metadata is lawful. -/
theorem Metadata.lawful : Metadata.schema.codec.LawfulNonNull Metadata.Encodable where
  decode_encode := by
    intro m hm
    have hrestores : Restores (fun f => f.write m) schema.fields schema.start
        { m with extra := [] } :=
      .omitted (writes_all m) text_lawful (fun _ _ => True.intro) rfl .nil
    refine Json.Schema.decodeMembers_written_append rfl keepsApart (by decide) ?_ hrestores
      hm.extra_unknown
    simp only [schema, List.forall_mem_cons]
    exact ⟨nofun, nofun⟩
  valid_of_decode := by
    intro j m hj h
    have hfields : ∀ ms, ∀ f ∈ schema.fields, f.Keeps fun m => m.extra = ms := by
      intro ms
      simp only [schema, List.forall_mem_cons]
      exact ⟨.omitted text_lawful fun _ _ _ h => h, nofun⟩
    obtain ⟨hnodup, hnew⟩ := Json.Schema.kept_of_decode rfl keepsApart hfields rfl hj h
    exact ⟨hnodup, hnew⟩
  encode_ne_null _ := nofun

/-- The numbers of a binding are finite. -/
structure PointBinding.Finite (b : PointBinding Float) : Prop where
  focus : b.focus.isFinite = true
  gap : b.gap.isFinite = true

/-- Only finite numbers are read. -/
theorem PointBinding.maintains : PointBinding.schema.Maintains PointBinding.Finite where
  start := ⟨by decide, by decide⟩
  fields := by
    simp only [schema, List.forall_mem_cons]
    exact ⟨.nullable text_lawful fun _ _ _ h => { h with },
      .default float_lawful fun _ _ hx h => { h with focus := hx },
      .default float_lawful fun _ _ hx h => { h with gap := hx }, nofun⟩
  unknown := nofun

/-- The table of bindings is lawful. -/
theorem PointBinding.lawful : PointBinding.schema.codec.LawfulNonNull PointBinding.Finite where
  decode_encode := by
    intro b hb
    refine Json.Schema.decodeMembers_written (by decide) ?_ ?_
    · simp only [schema, List.forall_mem_cons]
      exact ⟨nofun, nofun, nofun, nofun⟩
    · exact .nullable (writes_all b) text_lawful (fun _ _ => True.intro) rfl <|
        .default (writes_all b) float_lawful hb.focus <|
        .default (writes_all b) float_lawful hb.gap .nil
  valid_of_decode := maintains.decode
  encode_ne_null _ := nofun

/-! ### Attributes of the kinds -/

/-- The numbers of a text are finite. -/
structure TextContent.Finite (t : TextContent Float) : Prop where
  fontSize : t.fontSize.isFinite = true
  baseline : t.baseline.isFinite = true
  lineHeight : t.lineHeight.isFinite = true

/-- A text is read back. -/
theorem TextContent.decode_present {t : TextContent Float} (h : t.Finite) :
    schema.decodeMembers ((schema.encodeMembers t).filter (!·.2.isNull)) = .ok t := by
  have hw := writes_present t
  refine Json.Schema.decodeMembers_present (by decide) (by decide) rfl ?_
  exact .default hw text_lawful True.intro <|
    .default hw float_lawful h.fontSize <|
    .default hw Codec.uint32_lawful True.intro <|
    .default hw text_lawful True.intro <|
    .default hw text_lawful True.intro <|
    .default hw float_lawful h.baseline <|
    .optional hw text_lawful (fun _ _ => True.intro) rfl <|
    .default hw text_lawful True.intro <|
    .default hw float_lawful h.lineHeight .nil

/-- Only finite numbers are read. -/
theorem TextContent.maintains : TextContent.schema.Maintains TextContent.Finite where
  start := ⟨by decide, by decide, by decide⟩
  fields := by
    simp only [schema, List.forall_mem_cons]
    exact ⟨.default text_lawful fun _ _ _ h => { h with },
      .default float_lawful fun _ _ hx h => { h with fontSize := hx },
      .default Codec.uint32_lawful fun _ _ _ h => { h with },
      .default text_lawful fun _ _ _ h => { h with },
      .default text_lawful fun _ _ _ h => { h with },
      .default float_lawful fun _ _ hx h => { h with baseline := hx },
      .optional text_lawful fun _ _ _ h => { h with },
      .default text_lawful fun _ _ _ h => { h with },
      .default float_lawful fun _ _ hx h => { h with lineHeight := hx }, nofun⟩
  unknown := nofun

/-- Both coordinates of a point are finite. -/
def FinitePoint (p : Float × Float) : Prop := p.1.isFinite = true ∧ p.2.isFinite = true

/-- The points of a line and its bindings are finite. -/
structure LinearPath.Finite (path : LinearPath Float) : Prop where
  points : ∀ p ∈ path.points, FinitePoint p
  lastCommittedPoint : ∀ p ∈ path.lastCommittedPoint, FinitePoint p
  startBinding : ∀ b ∈ path.startBinding, b.Finite
  endBinding : ∀ b ∈ path.endBinding, b.Finite

/-- A line is read back. -/
theorem LinearPath.decode_present {path : LinearPath Float} (h : path.Finite) :
    schema.decodeMembers ((schema.encodeMembers path).filter (!·.2.isNull)) = .ok path := by
  have hw := writes_present path
  refine Json.Schema.decodeMembers_present (by decide) (by decide) rfl ?_
  exact .default hw floatPair_lawful.list h.points <|
    .optional hw floatPair_lawful h.lastCommittedPoint rfl <|
    .optional hw PointBinding.lawful h.startBinding rfl <|
    .optional hw PointBinding.lawful h.endBinding rfl <|
    .optional hw text_lawful (fun _ _ => True.intro) rfl <|
    .optional hw text_lawful (fun _ _ => True.intro) rfl .nil

/-- Only finite numbers are read. -/
theorem LinearPath.maintains : LinearPath.schema.Maintains LinearPath.Finite where
  start := ⟨nofun, nofun, nofun, nofun⟩
  fields := by
    simp only [schema, List.forall_mem_cons]
    exact ⟨.default floatPair_lawful.list fun _ _ hx h => { h with points := hx },
      .optional floatPair_lawful fun _ _ hx h => { h with lastCommittedPoint := hx },
      .optional PointBinding.lawful fun _ _ hx h => { h with startBinding := hx },
      .optional PointBinding.lawful fun _ _ hx h => { h with endBinding := hx },
      .optional text_lawful fun _ _ _ h => { h with },
      .optional text_lawful fun _ _ _ h => { h with }, nofun⟩
  unknown := nofun

/-- The points of a stroke and its pressures are finite. -/
structure Stroke.Finite (stroke : Stroke Float) : Prop where
  points : ∀ p ∈ stroke.points, FinitePoint p
  pressures : ∀ x ∈ stroke.pressures, x.isFinite = true
  lastCommittedPoint : ∀ p ∈ stroke.lastCommittedPoint, FinitePoint p

/-- A stroke is read back. -/
theorem Stroke.decode_present {stroke : Stroke Float} (h : stroke.Finite) :
    schema.decodeMembers ((schema.encodeMembers stroke).filter (!·.2.isNull)) = .ok stroke := by
  have hw := writes_present stroke
  refine Json.Schema.decodeMembers_present (by decide) (by decide) rfl ?_
  exact .default hw floatPair_lawful.list h.points <|
    .default hw float_lawful.list h.pressures <|
    .default hw Codec.bool_lawful True.intro <|
    .optional hw floatPair_lawful h.lastCommittedPoint rfl .nil

/-- Only finite numbers are read. -/
theorem Stroke.maintains : Stroke.schema.Maintains Stroke.Finite where
  start := ⟨nofun, nofun, nofun⟩
  fields := by
    simp only [schema, List.forall_mem_cons]
    exact ⟨.default floatPair_lawful.list fun _ _ hx h => { h with points := hx },
      .default float_lawful.list fun _ _ hx h => { h with pressures := hx },
      .default Codec.bool_lawful fun _ _ _ h => { h with },
      .optional floatPair_lawful fun _ _ hx h => { h with lastCommittedPoint := hx }, nofun⟩
  unknown := nofun

/-- An image is read back. -/
theorem Picture.decode_present {picture : Picture Float} (h : FinitePoint picture.scale) :
    schema.decodeMembers ((schema.encodeMembers picture).filter (!·.2.isNull)) = .ok picture := by
  have hw := writes_present picture
  refine Json.Schema.decodeMembers_present (by decide) (by decide) rfl ?_
  exact .optional hw text_lawful (fun _ _ => True.intro) rfl <|
    .default hw text_lawful True.intro <|
    .default hw floatPair_lawful h .nil

/-- Only finite scales are read. -/
theorem Picture.maintains : Picture.schema.Maintains fun picture => FinitePoint picture.scale where
  start := ⟨by decide, by decide⟩
  fields := by
    simp only [schema, List.forall_mem_cons]
    exact ⟨.optional text_lawful fun _ _ _ h => h, .default text_lawful fun _ _ _ h => h,
      .default floatPair_lawful fun _ _ hx _ => hx, nofun⟩
  unknown := nofun

/-- The title of a frame is read back. -/
theorem FrameTitle.decode_present (title : FrameTitle) :
    schema.decodeMembers ((schema.encodeMembers title).filter (!·.2.isNull)) = .ok title := by
  have hw := writes_present title
  refine Json.Schema.decodeMembers_present (by decide) (by decide) rfl ?_
  exact .optional hw text_lawful (fun _ _ => True.intro) rfl .nil

/-! ### Common attributes -/

/-- The numbers among the common attributes are finite, and what is kept beside the attributes of a
label and of metadata has keys of its own. -/
structure Element.CommonEncodable (e : Element Float) : Prop where
  x : e.x.isFinite = true
  y : e.y.isFinite = true
  width : e.width.isFinite = true
  height : e.height.isFinite = true
  angle : e.angle.isFinite = true
  strokeWidth : e.strokeWidth.isFinite = true
  roughness : e.roughness.isFinite = true
  opacity : e.opacity.isFinite = true
  roundness : ∀ r ∈ e.roundness, r.Finite
  label : ∀ l ∈ e.label, l.Encodable
  metadata : ∀ m ∈ e.metadata, m.Encodable

/-- The common attributes are read back. -/
theorem Element.decode_present {e : Element Float} (h : e.CommonEncodable) :
    commonSchema.decodeMembers ((commonSchema.encodeMembers e).filter (!·.2.isNull)) =
      .ok { e with kind := .rectangle, extra := [] } := by
  have hw := writes_present e
  refine Json.Schema.decodeMembers_present (by decide) (by decide) rfl ?_
  exact .default hw text_lawful True.intro <|
    .default hw float_lawful h.x <|
    .default hw float_lawful h.y <|
    .default hw float_lawful h.width <|
    .default hw float_lawful h.height <|
    .default hw float_lawful h.angle <|
    .default hw text_lawful True.intro <|
    .default hw text_lawful True.intro <|
    .default hw text_lawful True.intro <|
    .default hw float_lawful h.strokeWidth <|
    .default hw text_lawful True.intro <|
    .default hw float_lawful h.roughness <|
    .default hw float_lawful h.opacity <|
    .default hw text_lawful.list (fun _ _ => True.intro) <|
    .optional hw text_lawful (fun _ _ => True.intro) rfl <|
    .optional hw Roundness.lawful h.roundness rfl <|
    .default hw Codec.int64_lawful True.intro <|
    .default hw Codec.int64_lawful True.intro <|
    .default hw Codec.int64_lawful True.intro <|
    .default hw Codec.bool_lawful True.intro <|
    .optional hw BoundElement.lawful.list (fun _ _ _ _ => True.intro) rfl <|
    .default hw Codec.int64_lawful True.intro <|
    .optional hw text_lawful (fun _ _ => True.intro) rfl <|
    .default hw Codec.bool_lawful True.intro <|
    .omitted hw InlineLabel.lawful h.label rfl <|
    .omitted hw Metadata.lawful h.metadata rfl .nil

/-- Only attributes that can be written are read. -/
theorem Element.maintains : commonSchema.Maintains Element.CommonEncodable where
  start := ⟨by decide, by decide, by decide, by decide, by decide, by decide, by decide,
    by decide, nofun, nofun, nofun⟩
  fields := by
    simp only [commonSchema, List.forall_mem_cons]
    exact ⟨.default text_lawful fun _ _ _ h => { h with },
      .default float_lawful fun _ _ hx h => { h with x := hx },
      .default float_lawful fun _ _ hx h => { h with y := hx },
      .default float_lawful fun _ _ hx h => { h with width := hx },
      .default float_lawful fun _ _ hx h => { h with height := hx },
      .default float_lawful fun _ _ hx h => { h with angle := hx },
      .default text_lawful fun _ _ _ h => { h with },
      .default text_lawful fun _ _ _ h => { h with },
      .default text_lawful fun _ _ _ h => { h with },
      .default float_lawful fun _ _ hx h => { h with strokeWidth := hx },
      .default text_lawful fun _ _ _ h => { h with },
      .default float_lawful fun _ _ hx h => { h with roughness := hx },
      .default float_lawful fun _ _ hx h => { h with opacity := hx },
      .default text_lawful.list fun _ _ _ h => { h with },
      .optional text_lawful fun _ _ _ h => { h with },
      .optional Roundness.lawful fun _ _ hx h => { h with roundness := hx },
      .default Codec.int64_lawful fun _ _ _ h => { h with },
      .default Codec.int64_lawful fun _ _ _ h => { h with },
      .default Codec.int64_lawful fun _ _ _ h => { h with },
      .default Codec.bool_lawful fun _ _ _ h => { h with },
      .optional BoundElement.lawful.list fun _ _ _ h => { h with },
      .default Codec.int64_lawful fun _ _ _ h => { h with },
      .optional text_lawful fun _ _ _ h => { h with },
      .default Codec.bool_lawful fun _ _ _ h => { h with },
      .omitted InlineLabel.lawful fun _ _ hx h => { h with label := hx },
      .omitted Metadata.lawful fun _ _ hx h => { h with metadata := hx }, nofun⟩
  unknown := nofun

end DiagramScene
