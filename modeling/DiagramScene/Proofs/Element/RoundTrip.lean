import Mathlib
import DiagramScene.Proofs.Element.Tables

/-!
# Elements are read back from what they are written as

The members that an element is written as stand in four groups: the id and the type, the other
common attributes, the attributes of the kind, and all others.  For an element that can be written
(`Element.Encodable`) the keys of these groups are distinct, so that nothing is put in the place of
anything else, and reading finds the groups again by their keys.

Reading sorts the members of any object into the same groups.  What it makes of them can always be
written, so the condition of the round trip holds for every element that was read.
-/

namespace DiagramScene

open Json (writtenMembers)

/-! ### Kinds -/

namespace ElementKind

/-- The names of the kinds that are understood. -/
def names : List String :=
  ["rectangle", "diamond", "ellipse", "line", "arrow", "freedraw", "text", "image", "frame",
    "magicframe", "embeddable", "iframe"]

/-- The keys of the attributes of a kind. -/
def keys (kind : ElementKind Float) : List String := (reader kind.name).keys

/-- The numbers among the attributes of a kind are finite.  A text that was first written as nothing
is nothing, and a kind that is carried along is none of those that are understood. -/
def Encodable : ElementKind Float → Prop
  | line path | arrow path => path.Finite
  | freedraw stroke => stroke.Finite
  | text content => content.Finite ∧ (content.originalText ≠ "" ∨ content.text = "")
  | image picture => FinitePoint picture.scale
  | other name => name ∉ names
  | rectangle | diamond | ellipse | frame _ | magicFrame _ | embeddable | iframe => True

/-- A kind that is carried along is read without attributes. -/
theorem reader_of_notMem_names {name : String} (h : name ∉ names) :
    reader name = .bare (.other name) := by
  unfold reader
  split <;> first | rfl | exact absurd (by decide) h

/-- A text that was first written as something, or is nothing, is complete. -/
theorem completedText_eq {content : TextContent Float}
    (h : content.originalText ≠ "" ∨ content.text = "") :
    completedText content = .text content := by
  unfold completedText
  split
  · rename_i hempty
    have horiginal : content.originalText = "" := String.isEmpty_iff.mp hempty
    have htext : content.text = "" := h.resolve_left (not_not_intro horiginal)
    exact congrArg (fun original => ElementKind.text { content with originalText := original })
      (htext.trans horiginal.symm)
  · rfl

/-- The attributes of a kind are read back. -/
theorem decode_present {kind : ElementKind Float} (h : kind.Encodable) :
    (reader kind.name).decode (kind.encodeMembers.filter (!·.2.isNull)) = .ok kind := by
  cases kind with
  | rectangle | diamond | ellipse | embeddable | iframe => rfl
  | line path => exact Json.decoded_map_eq_ok.mpr ⟨path, LinearPath.decode_present h, rfl⟩
  | arrow path => exact Json.decoded_map_eq_ok.mpr ⟨path, LinearPath.decode_present h, rfl⟩
  | freedraw stroke => exact Json.decoded_map_eq_ok.mpr ⟨stroke, Stroke.decode_present h, rfl⟩
  | text content =>
    exact Json.decoded_map_eq_ok.mpr
      ⟨content, TextContent.decode_present h.1, completedText_eq h.2⟩
  | image picture => exact Json.decoded_map_eq_ok.mpr ⟨picture, Picture.decode_present h, rfl⟩
  | frame title => exact Json.decoded_map_eq_ok.mpr ⟨title, FrameTitle.decode_present title, rfl⟩
  | magicFrame title =>
    exact Json.decoded_map_eq_ok.mpr ⟨title, FrameTitle.decode_present title, rfl⟩
  | other name =>
    change (reader name).decode _ = _
    rw [reader_of_notMem_names h]
    rfl

/-- The text as it was first written is completed. -/
theorem encodable_completedText {content : TextContent Float} (h : content.Finite) :
    (completedText content).Encodable := by
  unfold completedText
  split
  · refine ⟨{ h with }, ?_⟩
    by_cases htext : content.text = ""
    · exact .inr htext
    · exact .inl htext
  · rename_i hne
    exact ⟨h, .inl fun horiginal => hne (String.isEmpty_iff.mpr horiginal)⟩

/-- Only kinds that can be written are read, and each under its name. -/
theorem encodable_of_decode {name : String} {ms : Members} {kind : ElementKind Float}
    (hms : ∀ m ∈ ms, m.2.WellFormed) (h : (reader name).decode ms = .ok kind) :
    kind.Encodable ∧ kind.name = name := by
  unfold reader at h
  split at h
  case h_4 | h_5 =>
    obtain ⟨path, hpath, rfl⟩ := Json.decoded_map_eq_ok.mp h
    exact ⟨LinearPath.maintains.decodeMembers hms hpath, rfl⟩
  case h_6 =>
    obtain ⟨stroke, hstroke, rfl⟩ := Json.decoded_map_eq_ok.mp h
    exact ⟨Stroke.maintains.decodeMembers hms hstroke, rfl⟩
  case h_7 =>
    obtain ⟨content, hcontent, rfl⟩ := Json.decoded_map_eq_ok.mp h
    refine ⟨encodable_completedText (TextContent.maintains.decodeMembers hms hcontent), ?_⟩
    unfold completedText
    split <;> rfl
  case h_8 =>
    obtain ⟨picture, hpicture, rfl⟩ := Json.decoded_map_eq_ok.mp h
    exact ⟨Picture.maintains.decodeMembers hms hpicture, rfl⟩
  case h_9 | h_10 =>
    obtain ⟨title, _, rfl⟩ := Json.decoded_map_eq_ok.mp h
    exact ⟨True.intro, rfl⟩
  case h_13 =>
    obtain rfl := Except.ok.inj h
    refine ⟨?_, rfl⟩
    simp_all [Encodable, names]
  all_goals
    obtain rfl := Except.ok.inj h
    exact ⟨True.intro, rfl⟩

/-- The attributes of a kind are written under keys of the kind, in their order. -/
theorem keys_encodeMembers_sublist (kind : ElementKind Float) :
    (Keyed.keys kind.encodeMembers).Sublist kind.keys := by
  cases kind with
  | rectangle | diamond | ellipse | embeddable | iframe | other name => exact List.nil_sublist _
  | line _ | arrow _ | freedraw _ | text _ | image _ | frame _ | magicFrame _ =>
    exact Json.keys_writtenMembers_sublist _ _

/-- The keys of a kind are distinct, and none is that of the type or of a common attribute. -/
theorem keys_reader (name : String) :
    (reader name).keys.Nodup ∧
      ∀ key ∈ (reader name).keys, key ≠ "type" ∧ key ∉ Element.commonKeys := by
  unfold reader
  split
  case h_13 => exact ⟨List.nodup_nil, nofun⟩
  all_goals decide

end ElementKind

/-! ### Groups of members -/

namespace Element

/-- The element can be written so that it is read back: its attributes can, and the members that no
attribute claims have keys of their own. -/
structure Encodable (e : Element Float) : Prop where
  common : e.CommonEncodable
  kind : e.kind.Encodable
  extra_nodup : (Keyed.keys e.extra).Nodup
  /-- No other member has the key of the type or of an attribute. -/
  extra_unknown : ∀ m ∈ e.extra, m.1 ≠ "type" ∧ m.1 ∉ commonKeys ∧ m.1 ∉ e.kind.keys

/-- The common attributes have their keys, in the order of the table. -/
theorem keys_common_sublist (e : Element Float) :
    (Keyed.keys (commonSchema.encodeMembers e)).Sublist commonKeys :=
  Json.keys_writtenMembers_sublist _ _

/-- The id is the first of the common attributes. -/
theorem common_eq_cons (e : Element Float) : commonSchema.encodeMembers e =
    ("id", .str e.id) :: (commonSchema.encodeMembers e).filter (·.1 != "id") := by
  obtain ⟨rest, hrest⟩ : ∃ rest, commonSchema.encodeMembers e = ("id", .str e.id) :: rest :=
    ⟨_, rfl⟩
  have hnodup : (Keyed.keys (commonSchema.encodeMembers e)).Nodup :=
    List.Nodup.sublist (keys_common_sublist e) (by decide)
  rw [hrest, Keyed.keys_cons, List.nodup_cons] at hnodup
  rw [hrest, List.filter_cons_of_neg (by simp), List.filter_eq_self.mpr]
  intro m hm
  have hkey : m.1 ∈ Keyed.keys rest := List.mem_map_of_mem hm
  have hne : m.1 ≠ "id" := fun hid => hnodup.1 (hid ▸ hkey)
  simpa using hne

/-- The members that are written first have the keys of the type and of common attributes. -/
theorem eq_type_or_mem_commonKeys {e : Element Float} {key : String}
    (h : key ∈ Keyed.keys ([("id", Json.str e.id), ("type", .str e.typeName)] ++
      (commonSchema.encodeMembers e).filter (·.1 != "id"))) : key = "type" ∨ key ∈ commonKeys := by
  rw [Keyed.keys_append, List.mem_append] at h
  rcases h with h | h
  · simp only [Keyed.keys_cons, Keyed.keys_nil, List.mem_cons, List.not_mem_nil, or_false] at h
    rcases h with rfl | rfl
    · exact .inr (by decide)
    · exact .inl rfl
  · have hsub : (Keyed.keys ((commonSchema.encodeMembers e).filter (·.1 != "id"))).Sublist
        (Keyed.keys (commonSchema.encodeMembers e)) := List.filter_sublist.map _
    exact .inr ((hsub.trans (keys_common_sublist e)).subset h)

/-- The groups of members stand one behind the other. -/
theorem encodeMembers_eq {e : Element Float} (h : e.Encodable) : e.encodeMembers =
    ("id", .str e.id) :: ("type", .str e.typeName) ::
      ((commonSchema.encodeMembers e).filter (·.1 != "id") ++ e.kind.encodeMembers ++ e.extra) := by
  obtain ⟨hdistinct, hdisjoint⟩ := ElementKind.keys_reader e.kind.name
  have hown := e.kind.keys_encodeMembers_sublist
  have hkind : ∀ m ∈ e.kind.encodeMembers, m.1 ∉ Keyed.keys
      ([("id", Json.str e.id), ("type", .str e.typeName)] ++
        (commonSchema.encodeMembers e).filter (·.1 != "id")) := by
    intro m hm hmem
    have hkey := hdisjoint m.1 (hown.subset (List.mem_map_of_mem hm))
    exact (eq_type_or_mem_commonKeys hmem).elim hkey.1 hkey.2
  have hextra : ∀ m ∈ e.extra, m.1 ∉ Keyed.keys
      ([("id", Json.str e.id), ("type", .str e.typeName)] ++
        (commonSchema.encodeMembers e).filter (·.1 != "id") ++ e.kind.encodeMembers) := by
    intro m hm hmem
    obtain ⟨htype, hcommon, hkeys⟩ := h.extra_unknown m hm
    rw [Keyed.keys_append, List.mem_append] at hmem
    rcases hmem with hmem | hmem
    · exact (eq_type_or_mem_commonKeys hmem).elim htype hcommon
    · exact hkeys (hown.subset hmem)
  simp only [encodeMembers]
  rw [Keyed.putAll_eq_append (hdistinct.sublist hown) hkind,
    Keyed.putNew_eq_append h.extra_nodup hextra]
  simp only [List.cons_append, List.nil_append]

/-- Without the type the groups are the common attributes, those of the kind, and the others. -/
theorem filter_encodeMembers {e : Element Float} (h : e.Encodable) :
    e.encodeMembers.filter (·.1 != "type") =
      commonSchema.encodeMembers e ++ e.kind.encodeMembers ++ e.extra := by
  have hcommon : ∀ m ∈ (commonSchema.encodeMembers e).filter (·.1 != "id"), m.1 ≠ "type" := by
    intro m hm htype
    have hkey := (keys_common_sublist e).subset
      (List.mem_map_of_mem (List.mem_filter.mp hm).1)
    exact absurd (htype ▸ hkey) (by decide)
  have hkind : ∀ m ∈ e.kind.encodeMembers, m.1 ≠ "type" := fun m hm =>
    ((ElementKind.keys_reader e.kind.name).2 m.1
      (e.kind.keys_encodeMembers_sublist.subset (List.mem_map_of_mem hm))).1
  have hothers : ∀ m ∈ (commonSchema.encodeMembers e).filter (·.1 != "id") ++
      e.kind.encodeMembers ++ e.extra, (m.1 != "type") = true := by
    intro m hm
    rw [bne_iff_ne]
    rcases List.mem_append.mp hm with hm | hm
    · exact (List.mem_append.mp hm).elim (hcommon m) (hkind m)
    · exact (h.extra_unknown m hm).1
  rw [encodeMembers_eq h, List.filter_cons_of_pos (by simp), List.filter_cons_of_neg (by simp),
    List.filter_eq_self.mpr hothers, ← List.cons_append, ← List.cons_append, ← common_eq_cons]

/-- Three groups of members, told apart by their keys. -/
structure Groups (keys : List String) (common own extra : Members) : Prop where
  common : ∀ m ∈ common, m.1 ∈ commonKeys ∧ m.1 ∉ keys
  own : ∀ m ∈ own, m.1 ∈ keys
  extra : ∀ m ∈ extra, m.1 ∉ commonKeys ∧ m.1 ∉ keys

/-- An element is written in groups. -/
theorem Encodable.groups {e : Element Float} (h : e.Encodable) :
    Groups e.kind.keys (commonSchema.encodeMembers e) e.kind.encodeMembers e.extra where
  common := by
    intro m hm
    have hkey : m.1 ∈ commonKeys := (keys_common_sublist e).subset (List.mem_map_of_mem hm)
    exact ⟨hkey, fun hown => ((ElementKind.keys_reader e.kind.name).2 m.1 hown).2 hkey⟩
  own m hm := e.kind.keys_encodeMembers_sublist.subset (List.mem_map_of_mem hm)
  extra m hm := (h.extra_unknown m hm).2

namespace Groups

variable {keys : List String} {common own extra : Members}

/-- The members without a key of the kind. -/
theorem filter_notMem (h : Groups keys common own extra) :
    (common ++ own ++ extra).filter (fun m => !keys.contains m.1) = common ++ extra := by
  have hcommon : common.filter (fun m => !keys.contains m.1) = common :=
    List.filter_eq_self.mpr fun m hm => by simpa using (h.common m hm).2
  have hown : own.filter (fun m => !keys.contains m.1) = [] :=
    List.filter_eq_nil_iff.mpr fun m hm => by simpa using h.own m hm
  have hextra : extra.filter (fun m => !keys.contains m.1) = extra :=
    List.filter_eq_self.mpr fun m hm => by simpa using (h.extra m hm).2
  rw [List.filter_append, List.filter_append, hcommon, hown, hextra, List.append_nil]

/-- The common attributes are found by their keys. -/
theorem known_common (h : Groups keys common own extra) :
    known commonKeys ((common ++ own ++ extra).filter fun m => !keys.contains m.1) =
      common.filter (!·.2.isNull) := by
  have hcommon : known commonKeys common = common.filter (!·.2.isNull) :=
    List.filter_congr fun m hm => by simp [(h.common m hm).1]
  have hextra : known commonKeys extra = [] :=
    List.filter_eq_nil_iff.mpr fun m hm => by simp [(h.extra m hm).1]
  rw [h.filter_notMem, known, List.filter_append]
  change known commonKeys common ++ known commonKeys extra = _
  rw [hcommon, hextra, List.append_nil]

/-- The attributes of the kind are found by their keys. -/
theorem known_own (h : Groups keys common own extra) :
    known keys (common ++ own ++ extra) = own.filter (!·.2.isNull) := by
  have hcommon : known keys common = [] :=
    List.filter_eq_nil_iff.mpr fun m hm => by simp [(h.common m hm).2]
  have hown : known keys own = own.filter (!·.2.isNull) :=
    List.filter_congr fun m hm => by simp [h.own m hm]
  have hextra : known keys extra = [] :=
    List.filter_eq_nil_iff.mpr fun m hm => by simp [(h.extra m hm).2]
  rw [known, List.filter_append, List.filter_append]
  change known keys common ++ known keys own ++ known keys extra = _
  rw [hcommon, hown, hextra, List.nil_append, List.append_nil]

/-- The other members are those that are left. -/
theorem filter_unknown (h : Groups keys common own extra) :
    (common ++ own ++ extra).filter
      (fun m => !keys.contains m.1 && !commonKeys.contains m.1) = extra := by
  have hcommon : common.filter (fun m => !commonKeys.contains m.1) = [] :=
    List.filter_eq_nil_iff.mpr fun m hm => by simpa using (h.common m hm).1
  have hextra : extra.filter (fun m => !commonKeys.contains m.1) = extra :=
    List.filter_eq_self.mpr fun m hm => by simpa using (h.extra m hm).1
  have hand : (fun m : String × Json => !keys.contains m.1 && !commonKeys.contains m.1) =
      fun m => !commonKeys.contains m.1 && !keys.contains m.1 :=
    funext fun m => Bool.and_comm _ _
  rw [hand, ← List.filter_filter, h.filter_notMem, List.filter_append, hcommon, hextra,
    List.nil_append]

end Groups

/-! ### Round trip -/

/-- The name of the kind is found in what was written. -/
theorem decodeType_encodeMembers {e : Element Float} (h : e.Encodable) :
    decodeType e.encodeMembers = .ok e.typeName := by
  rw [encodeMembers_eq h]
  rfl

/-- An element that can be written is read back. -/
theorem decode_encode {e : Element Float} (h : e.Encodable) :
    codec.decode (codec.encode e) = .ok e := by
  have hgroups := h.groups
  have hcommon := decode_present h.common
  have hkind := ElementKind.decode_present h.kind
  rw [← hgroups.known_common] at hcommon
  rw [← hgroups.known_own] at hkind
  change decodeMembers e.encodeMembers = .ok e
  refine bind_eq_ok_iff.mpr ⟨e.typeName, decodeType_encodeMembers h, ?_⟩
  rw [filter_encodeMembers h]
  refine bind_eq_ok_iff.mpr ⟨_, hcommon, ?_⟩
  refine bind_eq_ok_iff.mpr ⟨e.kind, hkind, ?_⟩
  exact congrArg (fun extra => (.ok { e with extra := extra } : Json.Decoded (Element Float)))
    hgroups.filter_unknown

/-- The members that are known under some keys are among the given ones. -/
theorem wellFormed_known {keys : List String} {ms : Members} (h : ∀ m ∈ ms, m.2.WellFormed) :
    ∀ m ∈ known keys ms, m.2.WellFormed :=
  fun m hm => h m (List.mem_filter.mp hm).1

/-- An element that was read can be written. -/
theorem encodable_of_decode {v : Json} (hv : v.WellFormed) {e : Element Float}
    (h : codec.decode v = .ok e) : e.Encodable := by
  cases hv with
  | @obj ms hnodup hvalues =>
    obtain ⟨name, hname, h⟩ := bind_eq_ok_iff.mp h
    obtain ⟨element, helement, h⟩ := bind_eq_ok_iff.mp h
    obtain ⟨kind, hread, h⟩ := bind_eq_ok_iff.mp h
    have hothers : ∀ m ∈ ms.filter (·.1 != "type"), m.2.WellFormed := fun m hm =>
      hvalues m (List.mem_filter.mp hm).1
    have hcommon : element.CommonEncodable := maintains.decodeMembers
      (wellFormed_known fun m hm => hothers m (List.mem_filter.mp hm).1) helement
    obtain ⟨hkind, rfl⟩ := ElementKind.encodable_of_decode (wellFormed_known hothers) hread
    obtain rfl := Except.ok.inj h
    refine ⟨{ hcommon with }, hkind, ?_, fun m hm => ?_⟩
    · have hsub := (List.filter_sublist (l := ms) (p := (·.1 != "type"))).map (·.1)
      exact hnodup.sublist ((List.filter_sublist.map _).trans hsub)
    · obtain ⟨hm, hnew⟩ := List.mem_filter.mp hm
      have htype : m.1 ≠ "type" := by simpa using (List.mem_filter.mp hm).2
      have hnew : m.1 ∉ (ElementKind.reader kind.name).keys ∧ m.1 ∉ commonKeys := by
        simpa using hnew
      exact ⟨htype, hnew.2, hnew.1⟩
  | null | bool | num | str | arr => exact nomatch h

/-- Reads a value as an element and writes that again. -/
def rewritten (v : Json) : Json.Decoded Json := (codec.decode v).map codec.encode

/-- An element that can be written is read back from what it is written as.  An element that was
read from any value can be written, so writing it loses nothing, and a value that was written by
reading another one is not changed by doing so again. -/
theorem decode_encode_decode :
    (∀ e : Element Float, e.Encodable → codec.decode (codec.encode e) = .ok e) ∧
    ∀ v : Json, v.WellFormed →
      (∀ e, codec.decode v = .ok e → e.Encodable ∧ codec.decode (codec.encode e) = .ok e) ∧
      ∀ v', rewritten v = .ok v' → rewritten v' = .ok v' := by
  refine ⟨fun e he => decode_encode he, fun v hv => ⟨fun e he => ?_, fun v' hv' => ?_⟩⟩
  · have hencodable := encodable_of_decode hv he
    exact ⟨hencodable, decode_encode hencodable⟩
  · obtain ⟨e, he, rfl⟩ := Json.decoded_map_eq_ok.mp hv'
    rw [rewritten, decode_encode (encodable_of_decode hv he)]
    rfl

/-- A text in a box with a label of its own, notes, and a member that other kinds would claim. -/
def sticker : Element Float :=
  { ofKind (.text { TextContent.empty with
      text := "note", originalText := "note", containerId := some "box" }) with
    id := "text"
    x := 1.5
    roundness := some ⟨Roundness.adaptiveKind, some 8.0⟩
    boundElements := some [⟨"edge", .arrow⟩]
    label := some ⟨"label", some 12.0, none, some ["group"], [("pinned", .bool true)]⟩
    metadata := some ⟨some "Class", [("row", Json.int 2)]⟩
    extra := [("points", .null)] }

/-- The text can be written. -/
theorem encodable_sticker : sticker.Encodable where
  common := ⟨by decide, by decide, by decide, by decide, by decide, by decide, by decide,
    by decide, by rintro _ ⟨⟩ _ ⟨⟩; decide,
    by rintro _ ⟨⟩; exact ⟨by rintro _ ⟨⟩; decide, by decide, by decide⟩,
    by rintro _ ⟨⟩; exact ⟨by decide, by decide⟩⟩
  kind := ⟨⟨by decide, by decide, by decide⟩, .inl (by decide)⟩
  extra_nodup := by decide
  extra_unknown := by decide

/-- A value of a kind that is not understood. -/
def stamp : Json := .obj [("type", .str "stamp"), ("width", Json.int 3), ("points", .null)]

/-- The text is read back, and so is what is made of the value. -/
theorem decode_encode_sticker : codec.decode (codec.encode sticker) = .ok sticker ∧
    stamp.WellFormed ∧ ∃ e, codec.decode stamp = .ok e ∧ codec.decode (codec.encode e) = .ok e := by
  have hstamp : stamp.WellFormed := by
    refine .obj (by decide) ?_
    simp only [List.forall_mem_cons]
    exact ⟨.str _, .num ⟨by decide, by decide⟩, .null, nofun⟩
  refine ⟨decode_encode_decode.1 sticker encodable_sticker, hstamp, _, rfl, ?_⟩
  exact ((decode_encode_decode.2 stamp hstamp).1 _ rfl).2

end Element

end DiagramScene
